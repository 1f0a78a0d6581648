import PlaneBridge.Number.Binary64

/-!
# The fewest digits that read back

A binary64 number stands for an interval of reals, those that round to it; its ends belong to it
exactly when the mantissa is even.  Of all decimals in that interval `shortest` finds one with the
fewest digits, and among those the nearest to the number.

On the grid of decimals with a given count of digits only the two neighbours of the number need
looking at: if any point of the grid lies in the interval then so does one of them.  Seventeen
digits always suffice.
-/

namespace PlaneBridge.Binary64

/-- A positive decimal `digits · 10 ^ exponent`. -/
structure Decimal where
  digits : Nat
  exponent : Int
  deriving DecidableEq, Repr

/-- Twice the distance unit of the interval: the number is `4 · mantissa` of these quarter units,
its upper end two units away and its lower end two as well, or one at a power of two. -/
structure Interval where
  low : Nat
  mid : Nat
  high : Nat
  unit : Int
  closed : Bool

/-- The reals that round to the magnitude of `x`, in quarters of its last place. -/
def interval (x : Binary64) : Interval :=
  let mid := 4 * x.mantissa
  let below := if x.mantissa = Nat.pow 2 52 ∧ -1074 < x.exponent then 1 else 2
  ⟨mid - below, mid, mid + 2, x.exponent - 2, x.mantissa % 2 = 0⟩

/-- `a · 2 ^ unit` over `10 ^ exponent`, as a ratio. -/
def overPow10 (a : Nat) (unit exponent : Int) : Nat × Nat :=
  let num := a * (if 0 ≤ unit then Nat.pow 2 unit.toNat else 1) *
    (if exponent < 0 then Nat.pow 10 (-exponent).toNat else 1)
  let den := (if unit < 0 then Nat.pow 2 (-unit).toNat else 1) *
    (if 0 ≤ exponent then Nat.pow 10 exponent.toNat else 1)
  (num, den)

/-- The multiple of `10 ^ exponent` in the interval that is nearest to its middle, if one of the
two neighbours of the middle is in it. -/
def onGrid (i : Interval) (exponent : Int) : Option Nat :=
  let (lowN, den) := overPow10 i.low i.unit exponent
  let (midN, _) := overPow10 i.mid i.unit exponent
  let (highN, _) := overPow10 i.high i.unit exponent
  let inside (k : Nat) : Bool :=
    if i.closed then lowN ≤ k * den ∧ k * den ≤ highN else lowN < k * den ∧ k * den < highN
  let down := midN / den
  let up := down + 1
  let downFits := decide (0 < down) && inside down
  let upFits := inside up
  let toDown := 2 * (midN % den)
  match downFits, upFits with
  | true, false => some down
  | false, true => some up
  | true, true =>
    if toDown < den then some down
    else if den < toDown then some up
    else some (if down % 2 = 0 then down else up)
  | false, false => none

/-- The first grid with a hit, going from coarse to fine. -/
def firstGrid (i : Interval) : (steps : Nat) → (exponent : Int) → Option Decimal
  | 0, _ => none
  | steps + 1, exponent =>
    match onGrid i exponent with
    | some digits => some ⟨digits, exponent⟩
    | none => firstGrid i steps (exponent - 1)

def leadingExponent (x : Binary64) : Int :=
  let (num, den) := x.ratio
  ((Nat.toDigits 10 num).length : Int) - (Nat.toDigits 10 den).length

def Decimal.trim : (steps : Nat) → Decimal → Decimal
  | 0, d => d
  | steps + 1, d =>
    if d.digits ≠ 0 ∧ d.digits % 10 = 0 then Decimal.trim steps ⟨d.digits / 10, d.exponent + 1⟩
    else d

/-- The decimal with the fewest digits that rounds to the magnitude of `x`, the nearest of them;
zero for zero. -/
def shortest (x : Binary64) : Decimal :=
  if x.isZero then ⟨0, 0⟩
  else ((firstGrid x.interval 21 (x.leadingExponent + 1)).getD ⟨0, 0⟩).trim 20

end PlaneBridge.Binary64
