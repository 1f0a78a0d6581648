/-!
# Finite binary64 numbers

The numbers with a sign, a mantissa of at most 53 bits and an exponent from -1074 to 971, each in
its one canonical form.  They are kept as integers, so that rounding is exact integer arithmetic
and a proof can compute with it.

`ofRatio` rounds a ratio of natural numbers to the nearest of them, a tie going to the even
mantissa, and has no answer where the ratio lies beyond the largest.  Every operation below is the
exact result rounded once by it.
-/

namespace PlaneBridge

/-- What a mantissa and an exponent have to satisfy: the mantissa has 53 bits, or fewer at the
least exponent. -/
abbrev Binary64.Canonical (mantissa : Nat) (exponent : Int) : Prop :=
  mantissa < Nat.pow 2 53 ∧ -1074 ≤ exponent ∧ exponent ≤ 971 ∧ (Nat.pow 2 52 ≤ mantissa ∨ exponent = -1074)

/-- The number `± mantissa · 2 ^ exponent`.  Zero keeps its sign. -/
structure Binary64 where
  negative : Bool
  mantissa : Nat
  exponent : Int
  canonical : Binary64.Canonical mantissa exponent
  deriving DecidableEq, Repr

namespace Binary64

def zero (negative : Bool) : Binary64 := ⟨negative, 0, -1074, by decide⟩

def isZero (x : Binary64) : Bool := x.mantissa == 0

/-- `num / den` rounded to an integer, a half going to the even neighbour. -/
def roundToEven (num den : Nat) : Nat :=
  let floor := num / den
  let twice := 2 * (num % den)
  if twice < den then floor
  else if den < twice then floor + 1
  else if floor % 2 = 0 then floor else floor + 1

/-- `num / (den · 2 ^ exponent)` as a ratio of natural numbers. -/
def scaled (num den : Nat) (exponent : Int) : Nat × Nat :=
  if 0 ≤ exponent then (num, den * Nat.pow 2 exponent.toNat) else (num * Nat.pow 2 (-exponent).toNat, den)

/-- The exponent at which `num / den` has a mantissa of 53 bits, or the least exponent where that
is larger. -/
def exponentFor (num den : Nat) : Int :=
  let guess : Int := (num.log2 : Int) - den.log2 - 53
  let (n, d) := scaled num den guess
  max (if n / d < Nat.pow 2 53 then guess else guess + 1) (-1074)

/-- The nearest number to `± num / den`, or nothing where the ratio is beyond the largest. -/
def ofRatio (negative : Bool) (num den : Nat) : Option Binary64 :=
  if num = 0 then some (zero negative)
  else
    let exponent := exponentFor num den
    let (n, d) := scaled num den exponent
    let rounded := roundToEven n d
    let (mantissa, exponent) :=
      if rounded = Nat.pow 2 53 then (Nat.pow 2 52, exponent + 1) else (rounded, exponent)
    if h : Canonical mantissa exponent then some ⟨negative, mantissa, exponent, h⟩ else none

def ratio (x : Binary64) : Nat × Nat :=
  if 0 ≤ x.exponent then (x.mantissa * Nat.pow 2 x.exponent.toNat, 1)
  else (x.mantissa, Nat.pow 2 (-x.exponent).toNat)

/-- The product with a positive integer power of ten that is itself rounded first. -/
def mulPow10 (x : Binary64) (k : Nat) : Option Binary64 := do
  let (pn, pd) := (← ofRatio false (Nat.pow 10 k) 1).ratio
  let (n, d) := x.ratio
  ofRatio x.negative (n * pn) (d * pd)

/-- The quotient by a positive integer power of ten that is itself rounded first. -/
def divPow10 (x : Binary64) (k : Nat) : Option Binary64 := do
  let (pn, pd) := (← ofRatio false (Nat.pow 10 k) 1).ratio
  let (n, d) := x.ratio
  ofRatio x.negative (n * pd) (d * pn)

end Binary64
end PlaneBridge
