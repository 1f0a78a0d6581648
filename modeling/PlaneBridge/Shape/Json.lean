import PlaneBridge.Shape.Basic
import PlaneBridge.Json.Reader

/-!
# Messages as JSON

`Shape.toJson` writes a value of a shape and `Shape.ofJson` reads one from a text laid out as a
`Json.Node`.  A record is written as an object with its members in order.  It is read from an object
whose members come in any order and may be joined by others, or from an array of the values alone.

Reading walks the text in its order and stops at the first fault, be it one of spelling or of the
kind of a value.
-/

namespace PlaneBridge

structure Json.Rules where
  /-- Whether no member may be left out; otherwise its default stands for it. -/
  strict : Bool
  /-- What an array that is too long for its record is refused with. -/
  surplus : Json.Error
  /-- How many arrays and objects may lie within each other around a free-form value, itself
  included. -/
  nesting : Option Nat

/-- The rules for texts: a walk stops at the comma before a surplus element, and no more than 127
arrays and objects lie within each other. -/
def Json.Rules.text (strict : Bool) : Json.Rules := ⟨strict, .malformed, some 127⟩

/-- The rules for values that have been read already. -/
def Json.Rules.value (strict : Bool) : Json.Rules := ⟨strict, .mismatch, none⟩

/-! ## Writing -/

def TextMap.toJson (m : TextMap) : Json.Value := .obj (m.entries.map fun (k, v) => (k, .str v))

mutual

/-- The value written in its shape. -/
def Shape.toJson : {α : Type} → Shape α → α → Json.Value
  | _, .text, s => .str s
  | _, .flag, b => .bool b
  | _, .int32, n => .num (.int ⟨n.toInt, by have := n.le_toInt; omega, by have := n.toInt_lt; omega⟩)
  | _, .int64, n => .num (.int ⟨n.toInt, by have := n.le_toInt; omega, by have := n.toInt_lt; omega⟩)
  | _, .optional, some s => .str s
  | _, .optional, none => .null
  | _, .textMap, m => m.toJson
  | _, .freeForm, members => .obj members
  | _, .list item, xs => .arr (xs.map item.toJson)
  | _, .record fields _ toRow _ _ _, r => .obj (fields.toMembers (toRow r))

def Fields.toMembers : {types : List Type} → Fields types → Row types → Entries Json.Value
  | _, .nil, _ => []
  | _, .cons name shape rest, (a, row) => (name, shape.toJson a) :: rest.toMembers row

end

/-! ## Reading -/

mutual

/-- Any value, inside `depth` arrays and objects.  The last member of each name is kept and members
are put into the order of their names. -/
def Json.Node.toValue (nesting : Option Nat) (depth : Nat) : Json.Node → Except Json.Error Json.Value
  | .null => .ok .null
  | .bool b => .ok (.bool b)
  | .num (some n) => .ok (.num n)
  | .str (some s) => .ok (.str s)
  | .num none | .str none => .error .malformed
  | .cut r _ => .error (.spelling r)
  | .arr items ending =>
    if nesting.all (depth < ·) then do
      let items ← toItems nesting (depth + 1) items
      ending.close
      return .arr items
    else .error .malformed
  | .obj members ending =>
    if nesting.all (depth < ·) then do
      let members ← toEntries nesting (depth + 1) members
      ending.close
      return .obj (Entries.sort members)
    else .error .malformed

def Json.Node.toItems (nesting : Option Nat) (depth : Nat) :
    List Json.Node → Except Json.Error (List Json.Value)
  | [] => .ok []
  | node :: rest => do
    let v ← node.toValue nesting depth
    return v :: (← toItems nesting depth rest)

def Json.Node.toEntries (nesting : Option Nat) (depth : Nat) :
    List (Option String × Json.Node) → Except Json.Error (Entries Json.Value)
  | [] => .ok []
  | (some name, node) :: rest => do
    let v ← node.toValue nesting depth
    return (name, v) :: (← toEntries nesting depth rest)
  | (none, _) :: _ => .error .malformed

end

namespace Json.Node

def toText : Json.Node → Except Json.Error String
  | .str (some s) => .ok s
  | node => node.refuse

def toFlag : Json.Node → Except Json.Error Bool
  | .bool b => .ok b
  | node => node.refuse

def toOptional : Json.Node → Except Json.Error (Option String)
  | .null => .ok none
  | node => some <$> node.toText

def toInteger (low high : Int) : Json.Node → Except Json.Error Int
  | .num (some (.int n)) =>
    if low ≤ n.val ∧ n.val ≤ high then .ok n.val else .error .mismatch
  | node => node.refuse

def toTextEntries : List (Option String × Json.Node) → Except Json.Error (Entries String)
  | [] => .ok []
  | (some name, node) :: rest => do
    let s ← node.toText
    return (name, s) :: (← toTextEntries rest)
  | (none, _) :: _ => .error .malformed

def toTextMap : Json.Node → Except Json.Error TextMap
  | .obj members ending => do
    let entries ← toTextEntries members
    ending.close
    return TextMap.ofEntries entries
  | node => node.refuse

end Json.Node

/-- The row of what has been read.  For a member that has not, the default stands, unless the rules
ask for all. -/
def Fields.complete (strict : Bool) {types : List Type} (fields : Fields types)
    (slots : Slots types) (defaults : Row types) : Except Json.Error (Row types) :=
  if strict then (fields.rowOf slots).mapError .missing else .ok (slots.fill defaults)

mutual

/-- The value of a shape that a node holds, inside `depth` arrays and objects. -/
def Shape.ofJson (rules : Json.Rules) : {α : Type} → Shape α → (depth : Nat) → Json.Node →
    Except Json.Error α
  | _, .text, _, node => node.toText
  | _, .flag, _, node => node.toFlag
  | _, .int32, _, node => Int32.ofInt <$> node.toInteger (-0x80000000) 0x7fffffff
  | _, .int64, _, node => Int64.ofInt <$> node.toInteger (-0x8000000000000000) 0x7fffffffffffffff
  | _, .optional, _, node => node.toOptional
  | _, .textMap, _, node => node.toTextMap
  | _, .freeForm, depth, .obj members ending => do
    let members ← Json.Node.toEntries rules.nesting (depth + 1) members
    ending.close
    return Entries.sort members
  | _, .freeForm, _, node => node.refuse
  | _, .list item, depth, .arr items ending => do
    let xs ← items.mapM (item.ofJson rules (depth + 1))
    ending.close
    return xs
  | _, .list _, _, node => node.refuse
  | _, .record fields default toRow ofRow _ _, depth, .obj members ending => do
    let slots ← members.foldlM (fun slots member => fields.putMember rules (depth + 1) member slots)
      Slots.empty
    ending.close
    return ofRow (← fields.complete rules.strict slots (toRow default))
  | _, .record fields default toRow ofRow _ _, depth, .arr items ending =>
    return ofRow (← fields.ofItems rules (depth + 1) (toRow default) items ending)
  | _, .record .., _, node => node.refuse

/-- The slots with one more member read.  A member of an unknown name is skipped, a second one of a
known name is a mismatch. -/
def Fields.putMember (rules : Json.Rules) : {types : List Type} → Fields types → (depth : Nat) →
    Option String × Json.Node → Slots types → Except Json.Error (Slots types)
  | _, _, _, (none, _), _ => .error .malformed
  | _, .nil, _, (some _, node), slots => do
    node.skip
    return slots
  | _, .cons field shape rest, depth, (some name, node), (slot, slots) =>
    if name = field then
      if slot.isSome then .error .mismatch
      else do return (some (← shape.ofJson rules depth node), slots)
    else do return (slot, ← rest.putMember rules depth (some name, node) slots)

/-- The row of values that stand alone, in the order of the members.  Defaults stand for those that
are missing at the end, unless the rules ask for all. -/
def Fields.ofItems (rules : Json.Rules) : {types : List Type} → Fields types → (depth : Nat) →
    (defaults : Row types) → List Json.Node → Json.Ending → Except Json.Error (Row types)
  | _, .nil, _, _, [], ending => ending.close
  | _, .nil, _, _, _ :: _, _ => .error rules.surplus
  | _, .cons _ shape rest, depth, (_, defaults), node :: items, ending => do
    let a ← shape.ofJson rules depth node
    return (a, ← rest.ofItems rules depth defaults items ending)
  | _, .cons .., _, defaults, [], ending => do
    ending.close
    if rules.strict then .error .mismatch else return defaults

end

/-- The value of a shape that a text holds and nothing but that. -/
def Shape.ofText {α : Type} (shape : Shape α) (strict : Bool) (text : String) :
    Except Json.Error α := do
  let document := Json.Document.ofText text.toList
  let a ← shape.ofJson (.text strict) 0 document.root
  if document.trailing then .error .malformed else return a

/-- The value of a shape that a JSON value holds. -/
def Shape.ofValue {α : Type} (shape : Shape α) (strict : Bool) (value : Json.Value) :
    Except Json.Error α :=
  shape.ofJson (.value strict) 0 value.node

end PlaneBridge
