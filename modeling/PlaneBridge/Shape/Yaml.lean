import PlaneBridge.Shape.Basic
import PlaneBridge.Yaml.Node
import PlaneBridge.Yaml.Plain

/-!
# Messages as YAML

`Shape.ofYaml` reads a value of a shape from a document.  What a scalar says depends on the shape
that it is read for: any scalar is a text, and a scalar that is written as nothing is an empty list
or a record of defaults.

A reference is followed where the node it stands for is wanted, and not in a member that nobody asks
for.  A document may lead through no more than a hundred references for each of its steps.
-/

namespace PlaneBridge

namespace Yaml

/-- Reading with a number of references that may still be followed. -/
abbrev Following := StateT Nat Option

def nothingTag : List Char := "tag:yaml.org,2002:null".toList

namespace Node

/-- The node itself or the one that it stands for. -/
def target (anchors : List (Nat × Node)) : Node → Following Node
  | .reference number => do
    match ← get with
    | 0 => failure
    | left + 1 =>
      set left
      anchors.lookup number
  | n => pure n

def text? : Node → Option String
  | .scalar _ text _ => some text
  | _ => none

def plain? : Node → Option String
  | .scalar _ text true => some text
  | _ => none

/-- The text, or nothing where a plain scalar says so.  Under the tag for that, a plain scalar must
say so in a word. -/
def optional? : Node → Option (Option String)
  | .scalar p text true =>
    if p.tag = some nothingTag then if Plain.saysNothing text then some none else none
    else if p.tag.isSome then some (some text)
    else some (if text.isEmpty ∨ Plain.saysNothing text then none else some text)
  | .scalar _ text false => some (some text)
  | _ => none

def items? : Node → Option (List Node)
  | .sequence _ items => some items
  | .scalar _ "" true => some []
  | _ => none

def entries? : Node → Option (List (Node × Node))
  | .mapping _ entries => some entries
  | .scalar _ "" true => some []
  | _ => none

def integer? (low high : Int) (n : Node) : Option Int := do
  let value ← Plain.integer? (← n.plain?)
  if low ≤ value ∧ value ≤ high then return value else none

/-- The text of a node or of the one it stands for. -/
def toText (anchors : List (Nat × Node)) (n : Node) : Following String := do
  (← n.target anchors).text?

end Node
end Yaml

mutual

/-- The value of a shape that a node holds. -/
def Shape.ofNode (anchors : List (Nat × Yaml.Node)) : {α : Type} → Shape α → Yaml.Node →
    Yaml.Following α
  | _, .text, n => n.toText anchors
  | _, .flag, n => do Yaml.Plain.flag? (← (← n.target anchors).plain?)
  | _, .int32, n => do return Int32.ofInt (← (← n.target anchors).integer? (-0x80000000) 0x7fffffff)
  | _, .int64, n => do return Int64.ofInt (← (← n.target anchors).integer? (-0x8000000000000000) 0x7fffffffffffffff)
  | _, .optional, n => do (← n.target anchors).optional?
  | _, .textMap, n => do
    let entries ← (← n.target anchors).entries?
    let entries ← entries.mapM fun (name, text) => do
      return (← name.toText anchors, ← text.toText anchors)
    return TextMap.ofEntries entries
  | _, .freeForm, _ => failure
  | _, .list item, n => do
    let items ← (← n.target anchors).items?
    items.mapM (item.ofNode anchors)
  | _, .record fields default toRow ofRow _ _, n => do
    let entries ← (← n.target anchors).entries?
    let slots ← entries.foldlM (fun slots (name, value) => do
      fields.putNode anchors (← name.toText anchors) value slots) Slots.empty
    return ofRow (slots.fill (toRow default))

/-- The slots with one more member read.  A member of an unknown name is skipped, and no known name
may come twice. -/
def Fields.putNode (anchors : List (Nat × Yaml.Node)) : {types : List Type} → Fields types →
    (name : String) → Yaml.Node → Slots types → Yaml.Following (Slots types)
  | _, .nil, _, _, slots => return slots
  | _, .cons field shape rest, name, n, (slot, slots) =>
    if name = field then
      if slot.isSome then failure else do return (some (← shape.ofNode anchors n), slots)
    else do return (slot, ← rest.putNode anchors name n slots)

end

/-- The value of a shape that a text holds as YAML. -/
def Shape.ofYaml {α : Type} (shape : Shape α) (text : String) : Option α := do
  let root ← Yaml.root? text.toList
  (shape.ofNode root.anchored root).run' (100 * root.size)

end PlaneBridge
