import PlaneBridge.Json.Value

/-!
# JSON texts as they are met

A message is decoded while its text is read, so the first fault that is met decides, whether it lies
in the spelling or in the shape of the data.  A `Node` is a text laid out for such a walk: the tree
of its values in the order of the text, up to the place where the text stops being JSON.

A value that nobody asks for is skipped, and skipping is more lenient than reading: it does not ask
whether a numeral is in range or an escaped surrogate has its partner.  So a node carries both
faces of such a leaf, and both of the place where the text breaks off.
-/

namespace PlaneBridge.Json

/-- What is wrong with the spelling of a text: it ends too early, or it is no JSON. -/
inductive Fault where
  | truncated
  | malformed
  deriving DecidableEq, Repr

/-- Why a text has no value of the type asked for. -/
inductive Error where
  | spelling (fault : Fault)
  /-- The text is well formed up to a value of the wrong kind, out of range or repeated. -/
  | mismatch
  /-- The text is well formed, but a record has no member of this name. -/
  | missing (name : String)
  deriving DecidableEq, Repr

abbrev Error.malformed : Error := .spelling .malformed
abbrev Error.truncated : Error := .spelling .truncated

inductive Ending where
  | closed
  /-- The text breaks off here or in the last of the contents, with the fault that reading and the
  fault that skipping the whole array or object meets. -/
  | cut (reading skipping : Fault)
  deriving DecidableEq, Repr

/-- A value in a text.  Of an array or object that is cut, only the last element or member value
may be cut itself. -/
inductive Node where
  | null
  | bool (b : Bool)
  /-- Without a number where the numeral is out of range. -/
  | num (n : Option Number)
  /-- Without a text where an escaped surrogate stands alone. -/
  | str (s : Option String)
  | arr (items : List Node) (ending : Ending)
  | obj (members : List (Option String × Node)) (ending : Ending)
  /-- The text breaks off inside a leaf or before it. -/
  | cut (reading skipping : Fault)
  deriving Repr, Inhabited

namespace Node

/-- The faults met at the place where the text breaks off within the value: on reading and on
skipping it. -/
def faults? : Node → Option (Fault × Fault)
  | .cut r s | .arr _ (.cut r s) | .obj _ (.cut r s) => some (r, s)
  | _ => none

def skip (n : Node) : Except Error Unit :=
  match n.faults? with
  | some (_, s) => .error (.spelling s)
  | none => .ok ()

/-- What a value of another kind than the one expected is refused with.  A leaf is read to its end
before it is refused, an array or object is refused at its bracket. -/
def refuse {α : Type} : Node → Except Error α
  | .cut r _ => .error (.spelling r)
  | .num none | .str none => .error .malformed
  | _ => .error .mismatch

end Node

namespace Ending

def close : Ending → Except Error Unit
  | .closed => .ok ()
  | .cut r _ => .error (.spelling r)

end Ending

structure Document where
  root : Node
  trailing : Bool
  deriving Repr

mutual

def Value.node : Value → Node
  | .null => .null
  | .bool b => .bool b
  | .num n => .num (some n)
  | .str s => .str (some s)
  | .arr items => .arr (itemNodes items) .closed
  | .obj members => .obj (memberNodes members) .closed

def itemNodes : List Value → List Node
  | [] => []
  | v :: rest => v.node :: itemNodes rest

def memberNodes : List (String × Value) → List (Option String × Node)
  | [] => []
  | (name, v) :: rest => (some name, v.node) :: memberNodes rest

end

end PlaneBridge.Json
