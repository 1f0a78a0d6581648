/-!
# Reading bytes as UTF-8

Bytes that are no UTF-8 are shown all the same, with the replacement character for each part that
does not fit: the longest beginning of a character, or a single byte that begins none.
-/

namespace PlaneBridge.Text.Utf8

/-- Whether a byte continues a character. -/
def isContinuation (b : UInt8) : Bool := 0x80 ≤ b && b < 0xC0

/-- Whether a byte can follow the first byte of a character.  This is where overlong forms,
surrogates and numbers beyond the last character are told apart. -/
def isSecond (first b : UInt8) : Bool :=
  if 0xC2 ≤ first && first < 0xE0 then isContinuation b
  else if first = 0xE0 then 0xA0 ≤ b && b < 0xC0
  else if first = 0xED then 0x80 ≤ b && b < 0xA0
  else if 0xE0 < first && first < 0xF0 then isContinuation b
  else if first = 0xF0 then 0x90 ≤ b && b < 0xC0
  else if 0xF0 < first && first < 0xF4 then isContinuation b
  else if first = 0xF4 then 0x80 ≤ b && b < 0x90
  else false

/-- The character of a first byte's bits and those of its continuation. -/
def character (bits : UInt8) (continuation : List UInt8) : Char :=
  Char.ofNat (continuation.foldl (fun n b => n * 64 + b.toNat % 64) bits.toNat)

def replacement : Char := '\ufffd'

/-- The characters of the bytes. -/
def characters : List UInt8 → List Char
  | [] => []
  | a :: rest =>
    if a < 0x80 then Char.ofNat a.toNat :: characters rest
    else
      match rest with
      | [] => [replacement]
      | b :: rest₁ =>
        if !isSecond a b then replacement :: characters (b :: rest₁)
        else if a < 0xE0 then character (a - 0xC0) [b] :: characters rest₁
        else
          match rest₁ with
          | [] => [replacement]
          | c :: rest₂ =>
            if !isContinuation c then replacement :: characters (c :: rest₂)
            else if a < 0xF0 then character (a - 0xE0) [b, c] :: characters rest₂
            else
              match rest₂ with
              | [] => [replacement]
              | d :: rest₃ =>
                if !isContinuation d then replacement :: characters (d :: rest₃)
                else character (a - 0xF0) [b, c, d] :: characters rest₃

end PlaneBridge.Text.Utf8
