import PlaneBridge.Proofs.Shape.Json

/-!
# Values read where they lie

How deep a value lies in its text matters to free-form parts alone, so a value of a regular shape is
read the same inside other values as on its own: `Shape.ofJson_depth`.  Nor do the members around it
matter if nobody asks for them: `Fields.putMembers_unknown`.
-/

namespace PlaneBridge

open Json (Node)

mutual

theorem Shape.ofJson_depth (rules : Json.Rules) (d d' : Nat) : {α : Type} → (shape : Shape α) →
    shape.regular = true → (n : Node) → shape.ofJson rules d n = shape.ofJson rules d' n
  | _, .text, _, _ | _, .flag, _, _ | _, .int32, _, _ | _, .int64, _, _ | _, .optional, _, _
  | _, .textMap, _, _ => rfl
  | _, .list item, hregular, .arr items ending => by
    have hitem : item.ofJson rules (d + 1) = item.ofJson rules (d' + 1) :=
      funext fun n => item.ofJson_depth rules _ _ hregular n
    rw [Shape.ofJson, Shape.ofJson, hitem]
  | _, .list _, _, .null | _, .list _, _, .bool _ | _, .list _, _, .num _ | _, .list _, _, .str _
  | _, .list _, _, .obj .. | _, .list _, _, .cut .. => rfl
  | _, .record fields .., hregular, .obj members ending => by
    rw [Shape.regular, Bool.and_eq_true] at hregular
    have hput : (fun slots member => fields.putMember rules (d + 1) member slots) =
        fun slots member => fields.putMember rules (d' + 1) member slots :=
      funext fun slots => funext fun member =>
        fields.putMember_depth rules _ _ hregular.2 member slots
    rw [Shape.ofJson, Shape.ofJson, hput]
  | _, .record fields .., hregular, .arr items ending => by
    rw [Shape.regular, Bool.and_eq_true] at hregular
    rw [Shape.ofJson, Shape.ofJson, fields.ofItems_depth rules _ (d' + 1) hregular.2]
  | _, .record .., _, .null | _, .record .., _, .bool _ | _, .record .., _, .num _
  | _, .record .., _, .str _ | _, .record .., _, .cut .. => rfl

theorem Fields.putMember_depth (rules : Json.Rules) (d d' : Nat) : {types : List Type} →
    (fields : Fields types) → fields.regular = true → (m : Option String × Node) →
    (slots : Slots types) → fields.putMember rules d m slots = fields.putMember rules d' m slots
  | _, .nil, _, (none, _), _ | _, .nil, _, (some _, _), _ => rfl
  | _, .cons .., _, (none, _), _ => rfl
  | _, .cons field shape rest, hregular, (some name, n), (slot, slots) => by
    rw [Fields.regular, Bool.and_eq_true] at hregular
    rw [Fields.putMember, Fields.putMember, shape.ofJson_depth rules d d' hregular.1,
      rest.putMember_depth rules d d' hregular.2]

theorem Fields.ofItems_depth (rules : Json.Rules) (d d' : Nat) : {types : List Type} →
    (fields : Fields types) → fields.regular = true → (defaults : Row types) →
    (items : List Node) → (ending : Json.Ending) →
    fields.ofItems rules d defaults items ending = fields.ofItems rules d' defaults items ending
  | _, .nil, _, _, [], _ | _, .nil, _, _, _ :: _, _ => rfl
  | _, .cons .., _, _, [], _ => rfl
  | _, .cons _ shape rest, hregular, (_, defaults), n :: items, ending => by
    rw [Fields.regular, Bool.and_eq_true] at hregular
    rw [Fields.ofItems, Fields.ofItems, shape.ofJson_depth rules d d' hregular.1,
      rest.ofItems_depth rules d d' hregular.2]

end

/-- A member that nobody asks for is passed over if it is whole. -/
theorem Fields.putMember_unknown (rules : Json.Rules) {types : List Type} {fields : Fields types}
    {name : String} (hname : name ∉ fields.names) {n : Node} (hn : n.faults? = none) (depth : Nat)
    (slots : Slots types) : fields.putMember rules depth (some name, n) slots = .ok slots := by
  induction types with
  | nil =>
    cases fields
    rw [putMember, Node.skip, hn]
    rfl
  | cons α types ih =>
    obtain _ | ⟨field, shape, rest⟩ := fields
    obtain ⟨slot, slots⟩ := slots
    rw [names, List.mem_cons, not_or] at hname
    obtain ⟨hfield, hrest⟩ := hname
    rw [putMember, if_neg hfield, ih hrest]
    rfl

theorem Fields.putMembers_unknown (rules : Json.Rules) {types : List Type} {fields : Fields types}
    {members : List (Option String × Node)}
    (h : ∀ m ∈ members, ∃ name n, m = (some name, n) ∧ name ∉ fields.names ∧ n.faults? = none)
    (depth : Nat) (slots : Slots types) :
    fields.putMembers rules depth members slots = .ok slots := by
  induction members with
  | nil => rfl
  | cons m members ih =>
    obtain ⟨⟨name, n, rfl, hname, hn⟩, hrest⟩ := List.forall_mem_cons.mp h
    rw [putMembers, List.foldlM_cons, putMember_unknown rules hname hn]
    exact ih hrest

end PlaneBridge
