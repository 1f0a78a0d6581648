import PlaneBridge.Json.Node

/-!
# Strings in JSON texts

A string stands between quotation marks.  `quote` escapes the quotation mark, the backslash and the
characters below the space, and nothing else.  Scanning accepts every escape of the format; the code
units that `\u` escapes give are joined to characters only when the string is read, so that skipping
a string does not look at surrogates.
-/

namespace PlaneBridge.Json.Text

/-! ## Writing -/

def hexDigit (n : Nat) : Char := Nat.digitChar (n % 16)

def escape (c : Char) : List Char :=
  if c = '"' then ['\\', '"']
  else if c = '\\' then ['\\', '\\']
  else if c = '\x08' then ['\\', 'b']
  else if c = '\x0c' then ['\\', 'f']
  else if c = '\n' then ['\\', 'n']
  else if c = '\r' then ['\\', 'r']
  else if c = '\t' then ['\\', 't']
  else if c < ' ' then ['\\', 'u', '0', '0', hexDigit (c.toNat / 16), hexDigit c.toNat]
  else [c]

def quote (s : List Char) : List Char := '"' :: s.flatMap escape ++ ['"']

/-! ## Reading -/

/-- A step through a string: a character, or a UTF-16 code unit given by its number. -/
inductive Piece where
  | char (c : Char)
  | unit (n : Nat)
  deriving DecidableEq, Repr

def isLeading (n : Nat) : Bool := 0xD800 ≤ n && n < 0xDC00

def isTrailing (n : Nat) : Bool := 0xDC00 ≤ n && n < 0xE000

def joinPair (leading trailing : Nat) : Char :=
  Char.ofNat (0x10000 + (leading - 0xD800) * 0x400 + (trailing - 0xDC00))

/-- The text of the pieces; nothing where a surrogate has no partner. -/
def join? : List Piece → Option (List Char)
  | [] => some []
  | .char c :: rest => (join? rest).map (c :: ·)
  | .unit n :: rest =>
    if isTrailing n then none
    else if isLeading n then
      match rest with
      | .unit m :: rest => if isTrailing m then (join? rest).map (joinPair n m :: ·) else none
      | _ => none
    else (join? rest).map (Char.ofNat n :: ·)

/-- Whether the pieces can be the beginning of a text: only their last may be a surrogate that
still waits for its partner. -/
def joinsSoFar : List Piece → Bool
  | [] => true
  | .char _ :: rest => joinsSoFar rest
  | .unit n :: rest =>
    if isTrailing n then false
    else if isLeading n then
      match rest with
      | [] => true
      | .unit m :: rest => isTrailing m && joinsSoFar rest
      | _ => false
    else joinsSoFar rest

/-- What a scan comes to: something found and the rest of the text, or a break with the faults that
reading and skipping meet. -/
inductive Scan (α : Type) where
  | found (a : α) (rest : List Char)
  | cut (reading skipping : Fault)
  deriving Repr

/-- The break of a string after the pieces given, latest first.  A surrogate without partner among
them is met first by a reader. -/
def breakOff (seen : List Piece) (fault : Fault) : Scan (Option String) :=
  .cut (if joinsSoFar seen.reverse then fault else .malformed) fault

def hexValue? (c : Char) : Option Nat :=
  if c.isDigit then some (c.toNat - '0'.toNat)
  else if 'a' ≤ c ∧ c ≤ 'f' then some (c.toNat - 'a'.toNat + 10)
  else if 'A' ≤ c ∧ c ≤ 'F' then some (c.toNat - 'A'.toNat + 10)
  else none

def hexUnit? (a b c d : Char) : Option Nat := do
  return (((← hexValue? a) * 16 + (← hexValue? b)) * 16 + (← hexValue? c)) * 16 + (← hexValue? d)

/-- The characters that a backslash and one letter stand for. -/
def shortEscape? (c : Char) : Option Char :=
  if c = '"' then some '"'
  else if c = '\\' then some '\\'
  else if c = '/' then some '/'
  else if c = 'b' then some '\x08'
  else if c = 'f' then some '\x0c'
  else if c = 'n' then some '\n'
  else if c = 'r' then some '\r'
  else if c = 't' then some '\t'
  else none

/-- The fault of a `\u` without four hexadecimal digits: a text of less than four more bytes is
truncated. -/
def hexFault (rest : List Char) : Fault :=
  if rest.foldl (fun bytes c => bytes + c.utf8Size) 0 < 4 then .truncated else .malformed

/-- A string from behind its opening mark. -/
def scan (seen : List Piece) : List Char → Scan (Option String)
  | [] => breakOff seen .truncated
  | c :: rest =>
    if c = '"' then .found ((join? seen.reverse).map String.ofList) rest
    else if c = '\\' then
      match rest with
      | [] => breakOff seen .truncated
      | e :: rest =>
        if e = 'u' then
          match rest with
          | h₁ :: h₂ :: h₃ :: h₄ :: rest =>
            match hexUnit? h₁ h₂ h₃ h₄ with
            | some n => scan (.unit n :: seen) rest
            | none => breakOff seen .malformed
          | rest => breakOff seen (hexFault rest)
        else
          match shortEscape? e with
          | some d => scan (.char d :: seen) rest
          | none => breakOff seen .malformed
    else if c < ' ' then breakOff seen .malformed
    else scan (.char c :: seen) rest

end PlaneBridge.Json.Text
