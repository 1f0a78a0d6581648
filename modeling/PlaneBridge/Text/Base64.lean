/-!
# Base64

Bytes as text over 64 characters.  `encode` writes three bytes as four characters and fills up the
last group with padding.

`decode` passes over whitespace and takes padded and unpadded text; the bits of the last character
that belong to no byte are not looked at.  It reads groups of eight, so that padding in an earlier
group is found when the next one begins.
-/

namespace PlaneBridge.Text.Base64

def alphabet : List Char :=
  "ABCDEFGHIJKLMNOPQRSTUVWXYZabcdefghijklmnopqrstuvwxyz0123456789+/".toList

def character (n : Nat) : Char := alphabet.getD (n % 64) '='

/-- Three bytes as four characters, the last of them padding where bytes are missing. -/
def encode : List UInt8 → List Char
  | [] => []
  | [a] => [character (a.toNat / 4), character (a.toNat * 16), '=', '=']
  | [a, b] =>
    [character (a.toNat / 4), character (a.toNat * 16 + b.toNat / 16), character (b.toNat * 4), '=']
  | a :: b :: c :: rest =>
    character (a.toNat / 4) :: character (a.toNat * 16 + b.toNat / 16) ::
      character (b.toNat * 4 + c.toNat / 64) :: character c.toNat :: encode rest

/-! ## Reading -/

inductive Error where
  | invalidCharacter (b : UInt8)
  | prematurePadding
  | invalidTrailingPadding
  deriving DecidableEq, Repr

def bits? (b : UInt8) : Option Nat :=
  let n := b.toNat
  if 65 ≤ n ∧ n ≤ 90 then some (n - 65)
  else if 97 ≤ n ∧ n ≤ 122 then some (n - 71)
  else if 48 ≤ n ∧ n ≤ 57 then some (n + 4)
  else if n = 43 then some 62
  else if n = 47 then some 63
  else none

/-- Space, tab, line feed, vertical tab, form feed and carriage return. -/
def isBlank (b : UInt8) : Bool := b = 32 || (9 ≤ b && b ≤ 13)

def isPadding (b : UInt8) : Bool := b = 61

def bytesOfFour (a b c d : Nat) : List UInt8 :=
  [.ofNat (a * 4 + b / 16), .ofNat (b % 16 * 16 + c / 4), .ofNat (c % 4 * 64 + d)]

/-- The bytes of the last four characters at most, of which `none` is padding. -/
def lastBytes : List (Option Nat) → Except Error (List UInt8)
  | [] => .ok []
  | [some a, some b] | [some a, some b, none, none] => .ok ((bytesOfFour a b 0 0).take 1)
  | [some a, some b, some c] | [some a, some b, some c, none] => .ok ((bytesOfFour a b c 0).take 2)
  | [some a, some b, some c, some d] => .ok (bytesOfFour a b c d)
  | _ => .error .invalidTrailingPadding

def lastGroup : List (Option Nat) → Except Error (List UInt8)
  | a :: b :: c :: d :: e :: rest =>
    match a, b, c, d with
    | some a, some b, some c, some d => do return bytesOfFour a b c d ++ (← lastBytes (e :: rest))
    | _, _, _, _ => .error .prematurePadding
  | group => lastBytes group

/-- The bytes of a group that others follow. -/
def fullGroup : List (Option Nat) → Except Error (List UInt8)
  | [some a, some b, some c, some d, some e, some f, some g, some h] =>
    .ok (bytesOfFour a b c d ++ bytesOfFour e f g h)
  | _ => .error .prematurePadding

/-- The bytes of a text, behind the characters of a group that has been begun. -/
def decodeFrom (group : List (Option Nat)) : List UInt8 → Except Error (List UInt8)
  | [] => lastGroup group
  | b :: rest =>
    if isBlank b then decodeFrom group rest
    else if isPadding b ∨ (bits? b).isSome then
      if group.length = 8 then do
        let bytes ← fullGroup group
        return bytes ++ (← decodeFrom [bits? b] rest)
      else decodeFrom (group ++ [bits? b]) rest
    else .error (.invalidCharacter b)

def decode (text : List UInt8) : Except Error (List UInt8) := decodeFrom [] text

end PlaneBridge.Text.Base64
