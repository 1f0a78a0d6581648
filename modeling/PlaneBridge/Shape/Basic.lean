import PlaneBridge.Json.Value
import PlaneBridge.Entries

/-!
# Shapes of messages

A shape says how values of a type are written: which members a record has, under which names and in
which order, what each of them holds, and what a member is when a text leaves it out.  Every message
of the library is described by one shape, and reading and writing are functions on shapes, so a law
that holds for all shapes holds for all messages.

A record's values are rows, one entry for each member.  `record` comes with the record whose members
stand for those a text leaves out, with the two ways between a record and its row, and with the
proof that they are inverse to each other.
-/

namespace PlaneBridge

@[reducible] def Row : List Type → Type
  | [] => Unit
  | α :: types => α × Row types

/-- An entry, or none yet, for each of the types. -/
@[reducible] def Slots : List Type → Type
  | [] => Unit
  | α :: types => Option α × Slots types

mutual

inductive Shape : Type → Type 1 where
  | text : Shape String
  | flag : Shape Bool
  | int32 : Shape Int32
  | int64 : Shape Int64
  | optional : Shape (Option String)
  | textMap : Shape TextMap
  /-- An object whose members may be anything. -/
  | freeForm : Shape (Entries Json.Value)
  | list {α : Type} (item : Shape α) : Shape (List α)
  | record {R : Type} {types : List Type} (fields : Fields types) (default : R)
      (toRow : R → Row types) (ofRow : Row types → R) (ofRow_toRow : ∀ r, ofRow (toRow r) = r)
      (toRow_ofRow : ∀ row, toRow (ofRow row) = row) : Shape R

inductive Fields : List Type → Type 1 where
  | nil : Fields []
  | cons {α : Type} {types : List Type} (name : String) (shape : Shape α) (rest : Fields types) :
      Fields (α :: types)

end

namespace Slots

def empty : {types : List Type} → Slots types
  | [] => ()
  | _ :: _ => (none, empty)

/-- The row of the entries, with those of another row where there is none. -/
def fill : {types : List Type} → Slots types → Row types → Row types
  | [], _, _ => ()
  | _ :: _, (slot, slots), (a, row) => (slot.getD a, slots.fill row)

end Slots

namespace Fields

def names : {types : List Type} → Fields types → List String
  | _, .nil => []
  | _, .cons name _ rest => name :: rest.names

/-- The row of the entries, or the name of the first member that has none. -/
def rowOf : {types : List Type} → Fields types → Slots types → Except String (Row types)
  | _, .nil, _ => .ok ()
  | _, .cons name _ _, (none, _) => .error name
  | _, .cons _ _ rest, (some a, slots) => do return (a, ← rest.rowOf slots)

end Fields
end PlaneBridge
