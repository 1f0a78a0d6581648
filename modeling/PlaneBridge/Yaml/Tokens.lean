import PlaneBridge.Yaml.Token

/-!
# The tokens of a YAML text

`tokens?` scans a text from its beginning to its end.  Outside flow collections the structure of a
text lies in its columns: a deeper column opens a block collection, a smaller one closes those that
are deeper.

That a mapping key begins is seen only at the colon behind it.  So each place where a simple key may
begin is remembered, one for every flow collection that is open, until its line ends or more than
1024 characters have gone by, and the key's token is put there once the colon is met.
-/

namespace PlaneBridge.Yaml

/-- Where a simple key may have begun, and how many tokens there are before it. -/
structure KeyPlace where
  position : Nat
  /-- Whether nothing but a key may begin there, as on the column of a block mapping. -/
  required : Bool
  index : Nat
  line : Nat
  column : Nat
  deriving Repr

structure Scanned where
  cells : List Cell
  tokens : Array Token
  place : Option KeyPlace
  /-- One for each flow collection that is open. -/
  outerPlaces : List (Option KeyPlace)
  /-- The column of the innermost block collection, less than zero outside all of them. -/
  indent : Int
  outerIndents : List Int
  keyAllowed : Bool

namespace Scanned

def start (cells : List Cell) : Scanned := ⟨cells, #[], none, [], -1, [], true⟩

def inFlow (s : Scanned) : Bool := !s.outerPlaces.isEmpty

def emit (s : Scanned) (t : Token) : Scanned := { s with tokens := s.tokens.push t }

def advance (s : Scanned) (n : Nat) : Scanned := { s with cells := s.cells.drop n }

/-! ## Keys -/

/-- A place that is given up.  One where a key is required must not be. -/
def dropPlace (s : Scanned) : Option Scanned :=
  if s.place.any (·.required) then none else some { s with place := none }

/-- A simple key may begin at the next token. -/
def savePlace (s : Scanned) : Option Scanned :=
  if s.keyAllowed then do
    let column := frontColumn s.cells
    let place := {
      position := s.tokens.size
      required := !s.inFlow && s.indent = column
      index := frontIndex s.cells
      line := frontLine s.cells
      column }
    return { (← s.dropPlace) with place := some place }
  else some s

def keeps (s : Scanned) (place : KeyPlace) : Bool :=
  place.line = frontLine s.cells && frontIndex s.cells ≤ place.index + 1024

/-- A place, unless it is too far away.  One where a key is required must not be. -/
def keptPlace (s : Scanned) : Option KeyPlace → Option (Option KeyPlace)
  | none => some none
  | some place =>
    if s.keeps place then some (some place) else if place.required then none else some none

def dropStale (s : Scanned) : Option Scanned := do
  return { s with
    place := ← s.keptPlace s.place
    outerPlaces := ← s.outerPlaces.mapM s.keptPlace }

/-! ## Columns -/

/-- A block collection opened at a column, unless one is open there.  Its token is put before the
token at the position given. -/
def openBlock (s : Scanned) (column position : Nat) (t : Token) : Scanned :=
  if !s.inFlow && decide (s.indent < column) then
    { s with
      indent := column
      outerIndents := s.indent :: s.outerIndents
      tokens := s.tokens.insertIdxIfInBounds position t }
  else s

def closeFrom (column : Int) (tokens : Array Token) (indent : Int) :
    List Int → Array Token × Int × List Int
  | [] => (tokens, indent, [])
  | outer :: rest =>
    if column < indent then closeFrom column (tokens.push .blockEnd) outer rest
    else (tokens, indent, outer :: rest)

def closeBlocks (s : Scanned) (column : Int) : Scanned :=
  if s.inFlow then s
  else
    let (tokens, indent, outerIndents) := closeFrom column s.tokens s.indent s.outerIndents
    { s with tokens, indent, outerIndents }

/-! ## Steps -/

/-- Blanks, comments and line breaks passed over.  A tab counts as a blank where it does not stand
for indentation.  A byte order mark may stand at the beginning of a line. -/
def skipGap : (steps : Nat) → Scanned → Scanned
  | 0, s => s
  | steps + 1, s =>
    let cells :=
      if frontColumn s.cells = 0 ∧ front s.cells = '\ufeff' then s.cells.tail else s.cells
    let tabs := s.inFlow || !s.keyAllowed
    let cells := skipComment (dropCells (fun c => c = ' ' || (tabs && c = '\t')) cells)
    if isBreak (front cells) then
      skipGap steps { s with cells := cells.tail, keyAllowed := s.keyAllowed || !s.inFlow }
    else { s with cells }

/-- A mark that ends what a key place waits for. -/
def mark (s : Scanned) (t : Token) (length : Nat) (keyAllowed : Bool) : Option Scanned := do
  return { ((← s.dropPlace).emit t).advance length with keyAllowed }

def documentMark (s : Scanned) (t : Token) : Option Scanned := (s.closeBlocks (-1)).mark t 3 false

def directive (s : Scanned) : Option Scanned := do
  let s ← (s.closeBlocks (-1)).dropPlace
  let (t, cells) ← scanDirective s.cells.tail
  return { s.emit t with cells, keyAllowed := false }

def openFlow (s : Scanned) (t : Token) : Option Scanned := do
  let s ← s.savePlace
  return { (s.emit t).advance 1 with
    place := none, outerPlaces := s.place :: s.outerPlaces, keyAllowed := true }

def closeFlow (s : Scanned) (t : Token) : Option Scanned := do
  let s ← s.mark t 1 false
  match s.outerPlaces with
  | [] => return s
  | place :: outerPlaces => return { s with place, outerPlaces }

def entryMark (s : Scanned) : Option Scanned :=
  if !s.inFlow && !s.keyAllowed then none
  else (s.openBlock (frontColumn s.cells) s.tokens.size .blockSequenceStart).mark .blockEntry 1 true

def keyMark (s : Scanned) : Option Scanned :=
  if !s.inFlow && !s.keyAllowed then none
  else
    (s.openBlock (frontColumn s.cells) s.tokens.size .blockMappingStart).mark .key 1 (!s.inFlow)

/-- The colon before a value.  If a simple key lies before it, the key's token is put there now. -/
def valueMark (s : Scanned) : Option Scanned :=
  match s.place with
  | some place =>
    let s := { s with tokens := s.tokens.insertIdxIfInBounds place.position .key, place := none }
    let s := s.openBlock place.column place.position .blockMappingStart
    some { (s.emit .value).advance 1 with keyAllowed := false }
  | none =>
    if !s.inFlow && !s.keyAllowed then none
    else
      let s := s.openBlock (frontColumn s.cells) s.tokens.size .blockMappingStart
      some { (s.emit .value).advance 1 with keyAllowed := !s.inFlow }

/-- A token that may begin a simple key and that the function scans from the cells on. -/
def property (s : Scanned) (scan : List Cell → Option (Token × List Cell)) : Option Scanned := do
  let s ← s.savePlace
  let (t, cells) ← scan s.cells
  return { s.emit t with cells, keyAllowed := false }

def named (s : Scanned) (token : List Char → Token) : Option Scanned :=
  s.property fun cells => do
    let (name, cells) ← scanName cells.tail
    return (token name, cells)

def quoted (s : Scanned) (quote : Char) : Option Scanned :=
  s.property fun cells => do
    let (text, cells) ← scanQuoted quote cells.length .start cells.tail
    return (.scalar text false, cells)

def plain (s : Scanned) : Option Scanned := do
  let s ← s.savePlace
  let (folding, cells) ← scanPlain ⟨s.inFlow, s.indent + 1⟩ false .start s.cells
  return { s.emit (.scalar folding.result true) with cells, keyAllowed := folding.left }

def block (s : Scanned) (folded : Bool) : Option Scanned := do
  let s ← s.dropPlace
  let (text, cells) ← scanBlock folded s.indent s.cells.tail
  return { s.emit (.scalar text false) with cells, keyAllowed := true }

def finish (s : Scanned) : Option (List Token) := do
  return (← (s.closeBlocks (-1)).dropPlace).tokens.toList

/-- The characters that no plain scalar begins with, unless it goes on without a blank for some. -/
def isIndicator (c : Char) : Bool := "-?:,[]\x7b\x7d#&*!|>'\"%@\x60".toList.contains c

def beginsPlain (s : Scanned) : Bool :=
  let c := front s.cells
  let d := ahead 1 s.cells
  !(isBlank c || isIndicator c) || (c = '-' && !isBlank d) ||
    (!s.inFlow && (c = '?' || c = ':') && !isBlankOrEnd d)

/-- One token more, with those that its place calls for. -/
def next (s : Scanned) : Option Scanned :=
  let c := front s.cells
  let markEnds := isBlankOrEnd (ahead 1 s.cells)
  if frontColumn s.cells = 0 ∧ c = '%' then s.directive
  else if atTriple '-' s.cells then s.documentMark .documentStart
  else if atTriple '.' s.cells then s.documentMark .documentEnd
  else if c = '[' then s.openFlow .flowSequenceStart
  else if c = '\x7b' then s.openFlow .flowMappingStart
  else if c = ']' then s.closeFlow .flowSequenceEnd
  else if c = '\x7d' then s.closeFlow .flowMappingEnd
  else if c = ',' then s.mark .flowEntry 1 true
  else if c = '-' ∧ markEnds then s.entryMark
  else if c = '?' ∧ (s.inFlow ∨ markEnds) then s.keyMark
  else if c = ':' ∧ (s.inFlow ∨ markEnds) then s.valueMark
  else if c = '*' then s.named .reference
  else if c = '&' then s.named .anchor
  else if c = '!' then s.property (scanTag s.inFlow)
  else if c = '|' ∧ !s.inFlow then s.block false
  else if c = '>' ∧ !s.inFlow then s.block true
  else if c = '\'' ∨ c = '"' then s.quoted c
  else if s.beginsPlain then s.plain
  else none

/-- The tokens to the end of the text.  Each step passes over a cell at least, so that the steps left
are never fewer than the cells. -/
def run : (steps : Nat) → Scanned → Option (List Token)
  | 0, _ => none
  | steps + 1, s => do
    let s ← (s.skipGap (steps + 1)).dropStale
    let s := s.closeBlocks (frontColumn s.cells)
    if isEnd (front s.cells) then s.finish else (← s.next).run steps

end Scanned

def tokens? (text : List Char) : Option (List Token) := do
  let cells ← layOut text
  (Scanned.start cells).run (cells.length + 1)

end PlaneBridge.Yaml
