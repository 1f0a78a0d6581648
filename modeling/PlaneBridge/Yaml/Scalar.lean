import PlaneBridge.Yaml.Cell

/-!
# YAML scalars

How plain, quoted and block scalars are read.  Across lines a scalar is folded: a single line break
becomes a space, further ones stay, and blanks around a break vanish.  Only a line feed folds; a
line or paragraph separator is kept as it is.
-/

namespace PlaneBridge.Yaml

/-- A scalar as far as it has been read, with the blanks and, once its line has been left, the breaks
behind its last character.  Texts are kept latest character first. -/
structure Folding where
  text : List Char
  blanks : List Char
  left : Bool
  /-- The break at which the line was left, unless it was escaped. -/
  first : Option Char
  further : List Char
  deriving Repr

namespace Folding

def start : Folding := ⟨[], [], false, none, []⟩

def blank (f : Folding) (c : Char) : Folding :=
  if f.left then f else { f with blanks := c :: f.blanks }

def newLine (f : Folding) (c : Char) : Folding :=
  if f.left then { f with further := c :: f.further }
  else { f with blanks := [], left := true, first := some c }

def escapedLine (f : Folding) : Folding := { f with left := true }

def settle (f : Folding) : Folding :=
  let gap :=
    if f.left then
      match f.first with
      | some '\n' => if f.further.isEmpty then [' '] else f.further
      | some c => f.further ++ [c]
      | none => f.further
    else f.blanks
  ⟨gap ++ f.text, [], false, none, []⟩

def push (f : Folding) (c : Char) : Folding := { f with text := c :: f.text }

def result (f : Folding) : String := String.ofList f.text.reverse

end Folding

/-! ## Plain scalars -/

/-- How a plain scalar is bounded: inside a flow collection, or by the least column of its lines. -/
structure PlainBounds where
  inFlow : Bool
  leastColumn : Int

/-- A plain scalar, the cells behind it, and whether the line has been left behind its last
character.  `running` says that the cell before belongs to the scalar. -/
def scanPlain (b : PlainBounds) (running : Bool) (f : Folding) :
    List Cell → Option (Folding × List Cell)
  | [] => some (f, [])
  | cell :: rest =>
    let c := cell.char
    let cells := cell :: rest
    if isBlank c then
      if f.left ∧ cell.column < b.leastColumn ∧ c = '\t' then none
      else scanPlain b false (f.blank c) rest
    else if isBreak c then scanPlain b false (f.newLine c) rest
    else if isEnd c then some (f, cells)
    else if !running && (f.left && !b.inFlow && decide (cell.column < b.leastColumn) ||
        atDocumentMark cells || c = '#') then some (f, cells)
    else if b.inFlow ∧ c = ':' ∧ (isFlowMark (front rest) ∨ front rest = '?') then none
    else if (c = ':' ∧ isBlankOrEnd (front rest)) ∨ (b.inFlow ∧ isFlowMark c) then some (f, cells)
    else scanPlain b true (f.settle.push c) rest

/-! ## Quoted scalars -/

def hexDigit? (c : Char) : Option Nat :=
  if c.isDigit then some (c.toNat - '0'.toNat)
  else if 'a' ≤ c ∧ c ≤ 'f' then some (c.toNat - 'a'.toNat + 10)
  else if 'A' ≤ c ∧ c ≤ 'F' then some (c.toNat - 'A'.toNat + 10)
  else none

def hexNumber? (count : Nat) (cells : List Cell) : Option Nat :=
  if cells.length < count then none
  else (cells.take count).foldlM (fun value cell => do return value * 16 + (← hexDigit? cell.char)) 0

def charOfNumber? (n : Nat) : Option Char :=
  if n.isValidChar then some (Char.ofNat n) else none

def shortEscape? (c : Char) : Option Char :=
  [('0', '\x00'), ('a', '\x07'), ('b', '\x08'), ('t', '\t'), ('\t', '\t'), ('n', '\n'),
    ('v', '\x0b'), ('f', '\x0c'), ('r', '\r'), ('e', '\x1b'), (' ', ' '), ('"', '"'), ('/', '/'),
    ('\\', '\\'), ('N', '\x85'), ('_', '\u00a0'), ('L', '\u2028'), ('P', '\u2029')].lookup c

def escapeDigits? (c : Char) : Option Nat := [('x', 2), ('u', 4), ('U', 8)].lookup c

/-- A quoted scalar from behind its opening quote, and the cells behind the closing one.  `quote`
also says which rules hold: between single quotes only the quote itself is escaped, by doubling. -/
def scanQuoted (quote : Char) : (steps : Nat) → Folding → List Cell → Option (String × List Cell)
  | 0, _, _ => none
  | _ + 1, _, [] => none
  | steps + 1, f, cell :: rest =>
    let c := cell.char
    if isEnd c then none
    else if isBlank c then scanQuoted quote steps (f.blank c) rest
    else if isBreak c then scanQuoted quote steps (f.newLine c) rest
    else if atDocumentMark (cell :: rest) then none
    else
      let f := f.settle
      if c = quote then
        if quote = '\'' ∧ front rest = '\'' then scanQuoted quote steps (f.push '\'') rest.tail
        else some (f.result, rest)
      else if c = '\\' ∧ quote = '"' then
        let e := front rest
        if isBreak e then scanQuoted quote steps f.escapedLine rest.tail
        else
          match shortEscape? e, escapeDigits? e with
          | some d, _ => scanQuoted quote steps (f.push d) rest.tail
          | none, some count =>
            match (hexNumber? count rest.tail).bind charOfNumber? with
            | some d => scanQuoted quote steps (f.push d) (rest.tail.drop count)
            | none => none
          | none, none => none
      else scanQuoted quote steps (f.push c) rest

/-! ## Block scalars -/

inductive Chomping where
  | strip
  | clip
  | keep
  deriving DecidableEq, Repr

def chomping? (c : Char) : Option Chomping :=
  if c = '+' then some .keep else if c = '-' then some .strip else none

def indentDigit? (c : Char) : Option Nat :=
  if c.isDigit then some (c.toNat - '0'.toNat) else none

/-- The indicators behind `|` or `>`, in either order, and the cells behind them. -/
def scanIndicators (cells : List Cell) : Option (Chomping × Nat × List Cell) :=
  match chomping? (front cells) with
  | some chomping =>
    match indentDigit? (ahead 1 cells) with
    | some 0 => none
    | some d => some (chomping, d, cells.drop 2)
    | none => some (chomping, 0, cells.drop 1)
  | none =>
    match indentDigit? (front cells) with
    | some 0 => none
    | some d =>
      match chomping? (ahead 1 cells) with
      | some chomping => some (chomping, d, cells.drop 2)
      | none => some (.clip, d, cells.drop 1)
    | none => some (.clip, 0, cells)

/-- Indentation and empty lines in front of a line of text: the breaks, latest first, the deepest
indentation seen, and the cells from the line on.  An indentation of zero is not known yet.  A tab
must not stand where indentation is due. -/
def scanEmptyLines (indent deepest : Nat) (breaks : List Char) :
    List Cell → Option (List Char × Nat × List Cell)
  | [] => some (breaks, deepest, [])
  | cell :: rest =>
    let inside := indent = 0 ∨ cell.column < indent
    if inside ∧ cell.char = ' ' then scanEmptyLines indent deepest breaks rest
    else if inside ∧ cell.char = '\t' then none
    else if isBreak cell.char then
      scanEmptyLines indent (max deepest cell.column) (cell.char :: breaks) rest
    else some (breaks, max deepest cell.column, cell :: rest)

/-- A block scalar as far as it has been read, texts latest character first, with the break at the
end of its last line and those after it.  A line that begins with a blank is indented. -/
structure BlockText where
  text : List Char
  first : List Char
  further : List Char
  indented : Bool

/-- The lines of a block scalar from the cells given on, which stand at the first of them. -/
def scanLines (folded : Bool) (indent : Nat) : (steps : Nat) → BlockText → List Cell →
    Option (BlockText × List Cell)
  | 0, b, cells => some (b, cells)
  | steps + 1, b, cells =>
    if frontColumn cells = indent ∧ !isEnd (front cells) then do
      let blank := isBlank (front cells)
      let text :=
        if folded && b.first = ['\n'] && !b.indented && !blank then
          b.further ++ (if b.further.isEmpty then ' ' :: b.text else b.text)
        else b.further ++ (b.first ++ b.text)
      let line := takeCells (fun c => !isBreakOrEnd c) cells
      let cells := dropCells (fun c => !isBreakOrEnd c) cells
      let first := if isBreak (front cells) then [front cells] else []
      let cells := if isBreak (front cells) then cells.tail else cells
      let (further, _, cells) ← scanEmptyLines indent 0 [] cells
      scanLines folded indent steps ⟨line.reverse ++ text, first, further, blank⟩ cells
    else some (b, cells)

/-- A block scalar from behind `|` or `>`, inside a block of the indentation `parent`. -/
def scanBlock (folded : Bool) (parent : Int) (cells : List Cell) : Option (String × List Cell) := do
  let (chomping, increment, cells) ← scanIndicators cells
  let cells ← endLine cells
  let given := if increment = 0 then 0 else (max parent 0).toNat + increment
  let (breaks, deepest, cells) ← scanEmptyLines given 0 [] cells
  let indent := if given = 0 then max (max deepest (parent + 1).toNat) 1 else given
  let (b, cells) ← scanLines folded indent cells.length ⟨[], [], breaks, false⟩ cells
  let tail := match chomping with
    | .strip => []
    | .clip => b.first
    | .keep => b.further ++ b.first
  return (String.ofList (tail ++ b.text).reverse, cells)

end PlaneBridge.Yaml
