import PlaneBridge.Json.Text

/-!
# Reading JSON texts

`Document.ofText` lays a text out as a `Document`.  It never fails: where the text stops being JSON
the document is cut, and the decoder that walks it meets the fault there.
-/

namespace PlaneBridge.Json

/-- The four blanks of the format. -/
def isBlank (c : Char) : Bool := c = ' ' || c = '\t' || c = '\n' || c = '\r'

def skipBlanks (text : List Char) : List Char := text.dropWhile isBlank

namespace Numeral

/-- A numeral whose digits are missing: the reader of a text that ends here asks for more of it,
who skips does not. -/
def missing (text : List Char) : Text.Scan Numeral :=
  .cut (if text.isEmpty then .truncated else .malformed) .malformed

/-- Whether an exponent is negative, and what stands behind its sign. -/
def splitSign : List Char → Bool × List Char
  | '+' :: rest => (false, rest)
  | '-' :: rest => (true, rest)
  | rest => (false, rest)

def scanExponent (negative : Bool) (whole fraction : List Char) (isWhole : Bool)
    (text : List Char) : Text.Scan Numeral :=
  match text with
  | c :: rest =>
    if c = 'e' ∨ c = 'E' then
      let (down, rest) := splitSign rest
      let digits := rest.takeWhile Char.isDigit
      if digits.isEmpty then missing rest
      else .found ⟨negative, whole, fraction, some (down, digits), false⟩
        (rest.dropWhile Char.isDigit)
    else .found ⟨negative, whole, fraction, none, isWhole⟩ text
  | [] => .found ⟨negative, whole, fraction, none, isWhole⟩ []

def scanFraction (negative : Bool) (whole : List Char) (text : List Char) : Text.Scan Numeral :=
  match text with
  | '.' :: rest =>
    let digits := rest.takeWhile Char.isDigit
    if digits.isEmpty then missing rest
    else scanExponent negative whole digits false (rest.dropWhile Char.isDigit)
  | text => scanExponent negative whole [] true text

def scanDigits (negative : Bool) (text : List Char) : Text.Scan Numeral :=
  let digits := text.takeWhile Char.isDigit
  match digits with
  | [] => missing text
  | '0' :: _ :: _ => .cut .malformed .malformed
  | digits => scanFraction negative digits (text.dropWhile Char.isDigit)

def scan : List Char → Text.Scan Numeral
  | '-' :: rest => scanDigits true rest
  | text => scanDigits false text

end Numeral

/-- What is left of the text behind a word, or the fault met in it. -/
def scanWord : (word text : List Char) → Except Fault (List Char)
  | [], text => .ok text
  | _ :: _, [] => .error .truncated
  | w :: word, c :: text => if w = c then scanWord word text else .error .malformed

def wordNode (word : List Char) (node : Node) (text : List Char) : Node × List Char :=
  match scanWord word text with
  | .ok rest => (node, rest)
  | .error f => (.cut f f, [])

/-- A place where a value should begin and does not. -/
def broken (f : Fault) : Node × List Char := (.cut f f, [])

mutual

/-- The value a text begins with, and the rest behind it.  No value takes more steps than twice the
characters there are. -/
def readValue : (steps : Nat) → List Char → Node × List Char
  | 0, _ => broken .malformed
  | steps + 1, text =>
    match skipBlanks text with
    | [] => broken .truncated
    | c :: rest =>
      if c = '"' then
        match Text.scan [] rest with
        | .found s rest => (.str s, rest)
        | .cut r s => (.cut r s, [])
      else if c = '-' ∨ c.isDigit then
        match Numeral.scan (c :: rest) with
        | .found n rest => (.num n.value?, rest)
        | .cut r s => (.cut r s, [])
      else if c = 'n' then wordNode ['u', 'l', 'l'] .null rest
      else if c = 't' then wordNode ['r', 'u', 'e'] (.bool true) rest
      else if c = 'f' then wordNode ['a', 'l', 's', 'e'] (.bool false) rest
      else if c = '[' then
        match skipBlanks rest with
        | [] => (.arr [] (.cut .truncated .truncated), [])
        | d :: after =>
          if d = ']' then (.arr [] .closed, after)
          else
            let (items, ending, rest) := readItems steps (d :: after)
            (.arr items ending, rest)
      else if c = '{' then
        match skipBlanks rest with
        | [] => (.obj [] (.cut .truncated .truncated), [])
        | d :: after =>
          if d = '}' then (.obj [] .closed, after)
          else
            let (members, ending, rest) := readMembers steps (d :: after)
            (.obj members ending, rest)
      else broken .malformed

def readItems : (steps : Nat) → List Char → List Node × Ending × List Char
  | 0, _ => ([], .cut .malformed .malformed, [])
  | steps + 1, text =>
    let (item, rest) := readValue steps text
    match item.faults? with
    | some (r, s) => ([item], .cut r s, [])
    | none =>
      match skipBlanks rest with
      | [] => ([item], .cut .truncated .truncated, [])
      | c :: rest =>
        if c = ',' then
          let (items, ending, rest) := readItems steps rest
          (item :: items, ending, rest)
        else if c = ']' then ([item], .closed, rest)
        else ([item], .cut .malformed .malformed, [])

def readMembers : (steps : Nat) → List Char → List (Option String × Node) × Ending × List Char
  | 0, _ => ([], .cut .malformed .malformed, [])
  | steps + 1, text =>
    match skipBlanks text with
    | [] => ([], .cut .truncated .truncated, [])
    | c :: rest =>
      if c = '"' then
        match Text.scan [] rest with
        | .cut r s => ([], .cut r s, [])
        | .found name rest =>
          match skipBlanks rest with
          | [] => ([(name, .cut .truncated .truncated)], .cut .truncated .truncated, [])
          | c :: rest =>
            if c = ':' then
              let (value, rest) := readValue steps rest
              match value.faults? with
              | some (r, s) => ([(name, value)], .cut r s, [])
              | none =>
                match skipBlanks rest with
                | [] => ([(name, value)], .cut .truncated .truncated, [])
                | c :: rest =>
                  if c = ',' then
                    let (members, ending, rest) := readMembers steps rest
                    ((name, value) :: members, ending, rest)
                  else if c = '}' then ([(name, value)], .closed, rest)
                  else ([(name, value)], .cut .malformed .malformed, [])
            else ([(name, .cut .malformed .malformed)], .cut .malformed .malformed, [])
      else ([], .cut .malformed .malformed, [])

end

/-- A text laid out for decoding. -/
def Document.ofText (text : List Char) : Document :=
  let (root, rest) := readValue (2 * text.length + 2) text
  ⟨root, !(skipBlanks rest).isEmpty⟩

end PlaneBridge.Json
