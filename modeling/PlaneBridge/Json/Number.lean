import PlaneBridge.Number.Shortest
import PlaneBridge.Number.Decimal

/-!
# JSON numbers

A number is an integer of the signed or the unsigned 64-bit range, or a binary64 number.  This file
writes both and reads a numeral, digit by digit as it was spelled, into one of them.

Integers are written in base ten.  A binary64 number is written with the fewest digits that read
back, always with a fraction or an exponent, so that it never reads back as an integer.

A numeral with a fraction or an exponent, or too large for 64 bits, is read as the product or
quotient of its leading digits and a power of ten, each rounded to binary64.  That is one rounding
more than the nearest number would take, and part of the format: texts are compared by what they
read as.
-/

namespace PlaneBridge.Json

/-- An integer that fits one of the two 64-bit ranges. -/
structure Integer where
  val : Int
  lower : -0x8000000000000000 ≤ val
  upper : val < 0x10000000000000000
  deriving DecidableEq, Repr

def Integer.ofInt? (n : Int) : Option Integer :=
  if h : -0x8000000000000000 ≤ n ∧ n < 0x10000000000000000 then some ⟨n, h.1, h.2⟩ else none

inductive Number where
  | int (n : Integer)
  | float (x : Binary64)
  deriving DecidableEq, Repr

namespace Number

/-! ## Writing -/

structure FloatStyle where
  /-- The least exponent of the leading digit that is written with leading zeros. -/
  leastPositional : Int
  /-- The first exponent of the leading digit that is written with an exponent. -/
  firstScientific : Int
  mark : Char

/-- Positional from `0.00001` to below `1e+16`, with at least one digit after the point. -/
def floatStyle : FloatStyle := ⟨-5, 16, 'e'⟩

def positional (digits : List Char) (exponent : Int) : List Char :=
  let leading := (digits.length : Int) + exponent
  if 0 ≤ exponent then digits ++ List.replicate exponent.toNat '0' ++ ['.', '0']
  else if 0 < leading then digits.take leading.toNat ++ '.' :: digits.drop leading.toNat
  else '0' :: '.' :: List.replicate (-leading).toNat '0' ++ digits

/-- `digits · 10 ^ exponent` written with one digit before the point and an exponent that always
has a sign. -/
def scientific (style : FloatStyle) (digits : List Char) (exponent : Int) : List Char :=
  let leading := (digits.length : Int) - 1 + exponent
  let mantissa := match digits with
    | d :: [] => [d]
    | d :: ds => d :: '.' :: ds
    | [] => []
  mantissa ++ style.mark :: (if leading < 0 then '-' else '+') :: Nat.toDigits 10 leading.natAbs

def floatText (x : Binary64) : List Char :=
  let decimal := x.shortest
  let digits := Nat.toDigits 10 decimal.digits
  let leading := (digits.length : Int) - 1 + decimal.exponent
  let magnitude :=
    if floatStyle.leastPositional ≤ leading ∧ leading < floatStyle.firstScientific then
      positional digits decimal.exponent
    else scientific floatStyle digits decimal.exponent
  if x.negative then '-' :: magnitude else magnitude

def text : Number → List Char
  | .int n => decimalDigits n.val
  | .float x => floatText x

end Number

/-! ## Reading -/

/-- A numeral as it is spelled: its digits before the point, after it, and its exponent. -/
structure Numeral where
  negative : Bool
  whole : List Char
  fraction : List Char
  /-- Whether the exponent is negative, and its digits. -/
  exponent : Option (Bool × List Char)
  isWhole : Bool
  deriving DecidableEq, Repr

namespace Numeral

def digitValue (c : Char) : Nat := c.toNat - '0'.toNat

/-- Digits taken on while the value stays within `limit`, and the digits that are left. -/
def gather (limit : Nat) (value : Nat) : List Char → Nat × List Char
  | [] => (value, [])
  | c :: rest =>
    if value * 10 + digitValue c ≤ limit then gather limit (value * 10 + digitValue c) rest
    else (value, c :: rest)

def clampExponent (e : Int) : Int := max (-0x80000000) (min 0x7fffffff e)

/-- `x · 10 ^ exponent`, by at most `steps` divisions by `10 ^ 308` and then one multiplication or
division.  Nothing where the result is beyond the largest number. -/
def scale : (steps : Nat) → Binary64 → Int → Option Binary64
  | 0, x, _ => some x
  | steps + 1, x, exponent =>
    if exponent.natAbs ≤ 308 then
      if 0 ≤ exponent then x.mulPow10 exponent.natAbs else x.divPow10 exponent.natAbs
    else if x.isZero then some x
    else if 0 ≤ exponent then none
    else (x.divPow10 308).bind fun y => scale steps y (exponent + 308)

/-- `± significand · 10 ^ exponent`.  Three divisions by `10 ^ 308` take every 64-bit significand to
zero, so four steps are enough. -/
def float (negative : Bool) (significand : Nat) (exponent : Int) : Option Number := do
  let x ← Binary64.ofRatio negative significand 1
  return .float (← scale 4 x exponent)

/-- What a numeral with fraction or exponent, or of more than 64 bits, reads as.  Digits that no
longer fit 64 bits do not count, apart from the places of those before the point. -/
def floatValue (n : Numeral) : Option Number :=
  let (whole, dropped) := gather 0xffffffffffffffff 0 n.whole
  let (significand, ignored) := gather 0xffffffffffffffff whole n.fraction
  let exponent : Int := dropped.length - (n.fraction.length - ignored.length : Nat)
  match n.exponent with
  | none => float n.negative significand exponent
  | some (down, digits) =>
    match gather 0x7fffffff 0 digits with
    | (shift, []) =>
      float n.negative significand (clampExponent (if down then exponent - shift else exponent + shift))
    | _ =>
      if significand ≠ 0 ∧ !down then none else some (.float (Binary64.zero n.negative))

/-- What the numeral reads as; nothing where it is beyond the largest binary64 number.  Minus zero
is no integer. -/
def value? (n : Numeral) : Option Number :=
  match n.isWhole, gather 0xffffffffffffffff 0 n.whole with
  | true, (whole, []) =>
    if n.negative then
      match if whole = 0 then none else Integer.ofInt? (-whole) with
      | some i => some (.int i)
      | none => float true whole 0
    else (Integer.ofInt? whole).map .int
  | _, _ => n.floatValue

end Numeral
end PlaneBridge.Json
