import PlaneBridge.Shape.Json

/-!
# Integers as names

In messages some records go by the decimal spelling of their numbers.  `Json.int32Key` reads such a
name, so that a record can be told from its name.
-/

namespace PlaneBridge

/-- The 32-bit integer that a name spells.  What does not begin like a numeral is no key at all. -/
def Json.int32Key (name : String) : Except Json.Error Int32 :=
  match name.toList with
  | [] => .error .malformed
  | c :: rest =>
    if c = '-' ∨ c.isDigit then
      match Json.Numeral.scan (c :: rest) with
      | .found numeral rest => do
        let n ← (Json.Node.num numeral.value?).toInteger (-0x80000000) 0x7fffffff
        if rest.isEmpty then return Int32.ofInt n else .error .malformed
      | .cut r _ => .error (.spelling r)
    else .error .malformed

end PlaneBridge
