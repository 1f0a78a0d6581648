import PlaneBridge.Json.Number

/-!
# JSON values

A value is what a JSON text says once its spelling is forgotten.  Members of an object keep the
order in which they are given.

A value that was read free-form is canonical: at every level the names are strictly increasing in
the order of their code points, which is also the order of their UTF-8 bytes.  `Entries.sort`
builds such objects, a later member replacing an earlier one of the same name.
-/

namespace PlaneBridge.Json

inductive Value where
  | null
  | bool (b : Bool)
  | num (n : Number)
  | str (s : String)
  | arr (items : List Value)
  | obj (members : List (String × Value))
  deriving Repr, Inhabited

end PlaneBridge.Json
