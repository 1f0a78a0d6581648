import PlaneBridge.Proofs.Json.Spelled
import PlaneBridge.Proofs.Shape.Refusal

/-!
# Texts that are decoded

A value can only be had of a node that is whole, `Shape.faults?_of_ofJson`.  So every text that is
decoded is of the grammar, and decoding it comes to reading the node that it spells:
`Shape.ofText_eq_ok_iff`.
-/

namespace PlaneBridge

open Json (Node Writes Ending)

/-- Values that stand alone are read to the bracket behind them. -/
theorem Fields.closed_of_ofItems {rules : Json.Rules} {types : List Type} {fields : Fields types}
    {depth : Nat} {defaults row : Row types} {items : List Node} {ending : Ending}
    (h : fields.ofItems rules depth defaults items ending = .ok row) : ending = .closed := by
  induction types generalizing items with
  | nil =>
    cases fields
    cases items with
    | nil => exact Ending.eq_closed h
    | cons => cases h
  | cons α types ih =>
    obtain _ | ⟨name, shape, rest⟩ := fields
    cases items with
    | nil =>
      obtain ⟨_, hclosed, -⟩ := Json.exists_of_bind_eq_ok h
      exact Ending.eq_closed hclosed
    | cons n items =>
      obtain ⟨_, -, h⟩ := Json.exists_of_bind_eq_ok h
      obtain ⟨_, hrest, -⟩ := Json.exists_of_bind_eq_ok h
      exact ih hrest

theorem Shape.faults?_of_ofJson {rules : Json.Rules} {α : Type} {shape : Shape α} {depth : Nat}
    {n : Node} {a : α} (h : shape.ofJson rules depth n = .ok a) : n.faults? = none := by
  cases n with
  | cut r s => cases shape <;> cases h
  | arr items ending =>
    cases shape with
    | list item =>
      rw [ofJson] at h
      obtain ⟨_, -, h⟩ := Json.exists_of_bind_eq_ok h
      obtain ⟨_, hclosed, -⟩ := Json.exists_of_bind_eq_ok h
      rw [Ending.eq_closed hclosed]
      rfl
    | record fields =>
      rw [ofJson] at h
      obtain ⟨_, hrow, -⟩ := Json.exists_of_bind_eq_ok h
      rw [Fields.closed_of_ofItems hrow]
      rfl
    | _ => cases h
  | obj members ending =>
    cases shape with
    | textMap =>
      obtain ⟨_, -, h⟩ := Json.exists_of_bind_eq_ok h
      obtain ⟨_, hclosed, -⟩ := Json.exists_of_bind_eq_ok h
      rw [Ending.eq_closed hclosed]
      rfl
    | freeForm =>
      rw [ofJson] at h
      obtain ⟨_, -, h⟩ := Json.exists_of_bind_eq_ok h
      obtain ⟨_, hclosed, -⟩ := Json.exists_of_bind_eq_ok h
      rw [Ending.eq_closed hclosed]
      rfl
    | record fields =>
      rw [ofJson] at h
      obtain ⟨_, -, h⟩ := Json.exists_of_bind_eq_ok h
      obtain ⟨_, hclosed, -⟩ := Json.exists_of_bind_eq_ok h
      rw [Ending.eq_closed hclosed]
      rfl
    | _ => cases h
  | _ => rfl

theorem Shape.ofText_of_writes {α : Type} (shape : Shape α) (strict : Bool) {n : Node}
    {text : String} (h : Writes n text) :
    shape.ofText strict text = shape.ofJson (.text strict) 0 n := by
  rw [ofText, h.ofText]
  show (shape.ofJson (.text strict) 0 n >>= pure) = _
  rw [bind_pure]

/-- A text is decoded if it spells a node that can be read. -/
theorem Shape.ofText_eq_ok_iff {α : Type} {shape : Shape α} {strict : Bool} {text : String}
    {a : α} :
    shape.ofText strict text = .ok a ↔
      ∃ n, Writes n text ∧ shape.ofJson (.text strict) 0 n = .ok a := by
  constructor
  · intro h
    obtain ⟨a', hread, h⟩ := Json.exists_of_bind_eq_ok h
    cases hdocument : Json.Document.ofText text.toList with
    | mk n trailing =>
      rw [hdocument] at hread h
      cases trailing with
      | true => cases h
      | false =>
        cases h
        exact ⟨n, Json.writes_of_ofText hdocument (faults?_of_ofJson hread), hread⟩
  · rintro ⟨n, hwrites, hread⟩
    rw [shape.ofText_of_writes strict hwrites, hread]

end PlaneBridge
