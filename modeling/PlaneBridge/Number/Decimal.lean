/-!
# Decimal text

An integer in base ten: a minus sign where it is due, and no leading zeros.
-/

namespace PlaneBridge

/-- The digits of an integer in base ten behind its sign. -/
def decimalDigits (n : Int) : List Char :=
  if n < 0 then '-' :: Nat.toDigits 10 n.natAbs else Nat.toDigits 10 n.natAbs

/-- An integer in base ten. -/
def decimal (n : Int) : String := String.ofList (decimalDigits n)

end PlaneBridge
