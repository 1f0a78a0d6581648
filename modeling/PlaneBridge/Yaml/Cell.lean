/-!
# YAML text as positioned characters

A YAML text is read by columns and lines, so it is first laid out as cells, one for each character
with the place where it stands.  Line breaks are made equal on the way: a carriage return, alone or
before a line feed, and the next-line character count as one line feed.  The line and paragraph
separators stay what they are, since a scalar keeps them.

The last cell is always the end mark, the only cell that holds the null character.
-/

namespace PlaneBridge.Yaml

/-- A character and its place.  Columns and lines count from zero, `index` counts characters. -/
structure Cell where
  char : Char
  index : Nat
  line : Nat
  column : Nat
  deriving DecidableEq, Repr

def isAllowed (c : Char) : Bool :=
  c = '\t' || c = '\n' || c = '\r' || (' ' ≤ c && c ≤ '~') || c = '\x85' ||
    ('\u00a0' ≤ c && c ≤ '\ufffd') || 0x10000 ≤ c.toNat

def isBlank (c : Char) : Bool := c = ' ' || c = '\t'

/-- A line break, once line breaks have been made equal. -/
def isBreak (c : Char) : Bool := c = '\n' || c = '\u2028' || c = '\u2029'

def isEnd (c : Char) : Bool := c = '\x00'

def isBreakOrEnd (c : Char) : Bool := isBreak c || isEnd c

def isBlankOrEnd (c : Char) : Bool := isBlank c || isBreakOrEnd c

def isNameChar (c : Char) : Bool := c.isAlphanum || c = '_' || c = '-'

/-- The characters that are brackets or separators inside a flow collection. -/
def isFlowMark (c : Char) : Bool := c = ',' || c = '[' || c = ']' || c = '{' || c = '}'

def layOutFrom (index line column : Nat) : List Char → List Cell
  | [] => [⟨'\x00', index, line, column⟩]
  | '\r' :: '\n' :: rest => ⟨'\n', index, line, column⟩ :: layOutFrom (index + 2) (line + 1) 0 rest
  | c :: rest =>
    let c := if c = '\r' ∨ c = '\x85' then '\n' else c
    if isBreak c then ⟨c, index, line, column⟩ :: layOutFrom (index + 1) (line + 1) 0 rest
    else ⟨c, index, line, column⟩ :: layOutFrom (index + 1) line (column + 1) rest

/-- The cells of a text; nothing where it holds a character that YAML does not allow. -/
def layOut (text : List Char) : Option (List Cell) :=
  if text.all isAllowed then some (layOutFrom 0 0 0 text) else none

/-- The character at the front, the null character behind the end. -/
def front : List Cell → Char
  | [] => '\x00'
  | cell :: _ => cell.char

/-- The character behind `n` others. -/
def ahead (n : Nat) (cells : List Cell) : Char := front (cells.drop n)

def frontColumn : List Cell → Nat
  | [] => 0
  | cell :: _ => cell.column

def frontLine : List Cell → Nat
  | [] => 0
  | cell :: _ => cell.line

def frontIndex : List Cell → Nat
  | [] => 0
  | cell :: _ => cell.index

/-- Whether a line begins with the character three times and then a blank, a break or the end. -/
def atTriple (c : Char) (cells : List Cell) : Bool :=
  frontColumn cells = 0 && front cells = c && ahead 1 cells = c && ahead 2 cells = c &&
    isBlankOrEnd (ahead 3 cells)

/-- Whether a line begins with the mark of a document's start or end. -/
def atDocumentMark (cells : List Cell) : Bool := atTriple '-' cells || atTriple '.' cells

def takeCells (p : Char → Bool) (cells : List Cell) : List Char :=
  (cells.takeWhile (p ·.char)).map (·.char)

def dropCells (p : Char → Bool) (cells : List Cell) : List Cell := cells.dropWhile (p ·.char)

/-- What is left of a line behind blanks and a comment. -/
def skipComment (cells : List Cell) : List Cell :=
  if front cells = '#' then dropCells (fun c => !isBreakOrEnd c) cells else cells

/-- The next line, if nothing but blanks and a comment are left of this one. -/
def endLine (cells : List Cell) : Option (List Cell) :=
  let cells := skipComment (dropCells isBlank cells)
  if isBreak (front cells) then some cells.tail
  else if isEnd (front cells) then some cells
  else none

end PlaneBridge.Yaml
