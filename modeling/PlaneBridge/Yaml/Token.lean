import PlaneBridge.Yaml.Scalar

/-!
# YAML tokens

The tokens of a YAML text, and how those of more than a mark are scanned: anchors and references,
tags, and the directives in front of a document.
-/

namespace PlaneBridge.Yaml

inductive Token where
  | version (major minor : Nat)
  | tagHandle (handle uri : List Char)
  | documentStart
  | documentEnd
  | blockSequenceStart
  | blockMappingStart
  | blockEnd
  | flowSequenceStart
  | flowSequenceEnd
  | flowMappingStart
  | flowMappingEnd
  | blockEntry
  | flowEntry
  | key
  | value
  | reference (name : List Char)
  | anchor (name : List Char)
  | tag (handle suffix : List Char)
  | scalar (text : String) (plain : Bool)
  deriving DecidableEq, Repr

/-! ## Anchors and references -/

def scanName (cells : List Cell) : Option (List Char × List Cell) :=
  let name := takeCells isNameChar cells
  let cells := dropCells isNameChar cells
  let c := front cells
  if name.isEmpty then none
  else if isBlankOrEnd c || ['?', ':', ',', ']', '}', '%', '@', '\x60'].contains c then
    some (name, cells)
  else none

/-! ## Tags -/

/-- The characters of tags.  Brackets and the comma may stand in a tag that is written out in full
and in the meaning of a handle. -/
def isTagChar (full : Bool) (c : Char) : Bool :=
  isNameChar c || ";/?:@&=+$.!~*'()%".toList.contains c || (full && (c = ',' || c = '[' || c = ']'))

/-- How many octets a character has in UTF-8, going by its first. -/
def octetCount? (octet : Nat) : Option Nat :=
  if octet < 0x80 then some 1
  else if 0xC0 ≤ octet ∧ octet < 0xE0 then some 2
  else if 0xE0 ≤ octet ∧ octet < 0xF0 then some 3
  else if 0xF0 ≤ octet ∧ octet < 0xF8 then some 4
  else none

def scanOctet (cells : List Cell) : Option (Nat × List Cell) :=
  if front cells = '%' then (hexNumber? 2 cells.tail).map fun octet => (octet, cells.drop 3) else none

def scanContinuation : (count : Nat) → List Cell → Option (List Nat × List Cell)
  | 0, cells => some ([], cells)
  | count + 1, cells => do
    let (octet, cells) ← scanOctet cells
    if 0x80 ≤ octet ∧ octet < 0xC0 then
      let (octets, cells) ← scanContinuation count cells
      return (octet :: octets, cells)
    else none

/-- The characters of a tag and the cells behind them.  An octet that is escaped is kept as the
character of its number: no tag that means anything here has one beyond ASCII. -/
def scanTagChars (full : Bool) : (steps : Nat) → List Cell → Option (List Char × List Cell)
  | 0, _ => none
  | steps + 1, cells =>
    if !isTagChar full (front cells) then some ([], cells)
    else if front cells = '%' then do
      let (octet, cells) ← scanOctet cells
      let count ← octetCount? octet
      let (octets, cells) ← scanContinuation (count - 1) cells
      let (chars, cells) ← scanTagChars full steps cells
      return ((octet :: octets).map Char.ofNat ++ chars, cells)
    else do
      let (chars, rest) ← scanTagChars full steps cells.tail
      return (front cells :: chars, rest)

/-- The text of a tag ends before a null character. -/
def tagText (chars : List Char) : List Char := chars.takeWhile (· ≠ '\x00')

/-- The characters of a tag, of which there is at least one, and the cells behind them. -/
def scanTagText (full : Bool) (cells : List Cell) : Option (List Char × List Cell) := do
  let (chars, cells) ← scanTagChars full (cells.length + 1) cells
  if chars.isEmpty then none else return (tagText chars, cells)

/-- A tag handle, at its exclamation mark: that alone, or a name between two, or the beginning of a
tag that has no second one. -/
def scanHandle (cells : List Cell) : Option (List Char × List Cell) :=
  if front cells = '!' then
    let name := takeCells isNameChar cells.tail
    let cells := dropCells isNameChar cells.tail
    if front cells = '!' then some ('!' :: name ++ ['!'], cells.tail) else some ('!' :: name, cells)
  else none

def isClosedHandle (handle : List Char) : Bool := 1 < handle.length && handle.getLast? = some '!'

/-- A tag at its exclamation mark.  A lone exclamation mark is a tag without handle. -/
def scanTag (inFlow : Bool) (cells : List Cell) : Option (Token × List Cell) := do
  let (tag, cells) ←
    if ahead 1 cells = '<' then do
      let (text, cells) ← scanTagText true (cells.drop 2)
      if front cells = '>' then some (Token.tag [] text, cells.tail) else none
    else do
      let (handle, cells) ← scanHandle cells
      if isClosedHandle handle then
        let (text, cells) ← scanTagText false cells
        return (Token.tag handle text, cells)
      else
        let (chars, cells) ← scanTagChars false (cells.length + 1) cells
        match tagText (handle.tail ++ chars) with
        | [] => return (Token.tag [] ['!'], cells)
        | text => return (Token.tag ['!'] text, cells)
  if isBlankOrEnd (front cells) ∨ (inFlow ∧ front cells = ',') then return (tag, cells) else none

/-! ## Directives -/

def scanVersionNumber (cells : List Cell) : Option (Nat × List Cell) :=
  let digits := takeCells Char.isDigit cells
  if digits.isEmpty ∨ 9 < digits.length then none
  else some (digits.foldl (fun n c => n * 10 + (c.toNat - '0'.toNat)) 0, dropCells Char.isDigit cells)

def scanVersion (cells : List Cell) : Option (Token × List Cell) := do
  let (major, cells) ← scanVersionNumber (dropCells isBlank cells)
  if front cells = '.' then
    let (minor, cells) ← scanVersionNumber cells.tail
    return (.version major minor, cells)
  else none

def scanTagHandle (cells : List Cell) : Option (Token × List Cell) := do
  let (handle, cells) ← scanHandle (dropCells isBlank cells)
  if (isClosedHandle handle ∨ handle = ['!']) ∧ isBlank (front cells) then
    let (uri, cells) ← scanTagText true (dropCells isBlank cells)
    if isBlankOrEnd (front cells) then return (.tagHandle handle uri, cells) else none
  else none

/-- A directive from behind its percent sign, and the cells of the next line. -/
def scanDirective (cells : List Cell) : Option (Token × List Cell) := do
  let name := String.ofList (takeCells isNameChar cells)
  let cells := dropCells isNameChar cells
  if !isBlankOrEnd (front cells) then none
  let (directive, cells) ←
    if name = "YAML" then scanVersion cells
    else if name = "TAG" then scanTagHandle cells
    else none
  return (directive, ← endLine cells)

end PlaneBridge.Yaml
