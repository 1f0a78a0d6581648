import PlaneBridge.Shape.Basic
import PlaneBridge.Proofs.Json.Path

/-!
# Paths into shapes

The shape of what a path leads to.  It does not hang on the value: all elements of a list have one
shape, and all that a map of texts holds are texts.
-/

namespace PlaneBridge

open Json (Step Path)

/-- The shape of the member of a name. -/
def Fields.find? (name : String) : {types : List Type} → Fields types → Option (Σ α, Shape α)
  | _, .nil => none
  | _, .cons field shape rest => if field = name then some ⟨_, shape⟩ else rest.find? name

theorem Fields.mem_names_of_find? {name : String} {types : List Type} {fields : Fields types}
    {sub : Σ α, Shape α} (h : fields.find? name = some sub) : name ∈ fields.names := by
  induction types with
  | nil =>
    cases fields
    cases h
  | cons α types ih =>
    obtain _ | ⟨field, shape, rest⟩ := fields
    rw [find?] at h
    split at h
    · rename_i hname
      exact hname ▸ List.mem_cons_self
    · exact List.mem_cons_of_mem _ (ih h)

namespace Shape

def step? : {α : Type} → Shape α → Step → Option (Σ β, Shape β)
  | _, .record fields .., .member name => fields.find? name
  | _, .textMap, .member _ => some ⟨_, .text⟩
  | _, .list item, .item _ => some ⟨_, item⟩
  | _, _, _ => none

/-- The shape of what a path leads to. -/
def at? : {α : Type} → Shape α → Path → Option (Σ β, Shape β)
  | α, shape, [] => some ⟨α, shape⟩
  | _, shape, s :: p => (shape.step? s).bind fun sub => sub.2.at? p

def isRecord : {α : Type} → Shape α → Bool
  | _, .record .. => true
  | _, _ => false

end Shape

mutual

/-- Whether every path that leads from here to anything but a record passes one of the places. -/
def Shape.covered (places : List Path) (here : Path) : {α : Type} → Shape α → Bool
  | _, .record fields .. => places.contains here || fields.covered places here
  | _, _ => places.contains here

def Fields.covered (places : List Path) (here : Path) : {types : List Type} → Fields types → Bool
  | _, .nil => true
  | _, .cons name shape rest =>
    shape.covered places (here ++ [.member name]) && rest.covered places here

end

theorem Fields.covered_of_find? {places : List Path} {here : Path} {name : String}
    {types : List Type} {fields : Fields types} (h : fields.covered places here = true)
    {sub : Σ α, Shape α} (hsub : fields.find? name = some sub) :
    sub.2.covered places (here ++ [.member name]) = true := by
  induction types with
  | nil =>
    cases fields
    cases hsub
  | cons α types ih =>
    obtain _ | ⟨field, shape, rest⟩ := fields
    rw [covered, Bool.and_eq_true] at h
    rw [find?] at hsub
    split at hsub
    · rename_i hname
      cases hsub
      exact hname ▸ h.1
    · exact ih h.2 hsub

theorem Shape.covered_of_isRecord_eq_false {places : List Path} {here : Path} {α : Type}
    {shape : Shape α} (hrecord : shape.isRecord = false) (h : shape.covered places here = true) :
    here ∈ places := by
  cases shape with
  | record => cases hrecord
  | _ => exact List.contains_iff_mem.mp h

theorem Shape.exists_prefix_of_covered {places : List Path} {here p : Path} {α : Type}
    {shape : Shape α} (h : shape.covered places here = true) {sub : Σ β, Shape β}
    (hsub : shape.at? p = some sub) (hrecord : sub.2.isRecord = false) :
    ∃ place ∈ places, place <+: here ++ p := by
  induction p generalizing here α with
  | nil =>
    cases hsub
    exact ⟨here, covered_of_isRecord_eq_false hrecord h, List.prefix_append here []⟩
  | cons s p ih =>
    by_cases hhere : here ∈ places
    · exact ⟨here, hhere, List.prefix_append here _⟩
    obtain ⟨next, hnext, hbelow⟩ := Option.bind_eq_some_iff.mp hsub
    cases shape with
    | record fields =>
      cases s with
      | item i => cases hnext
      | member name =>
        rw [covered, Bool.or_eq_true, List.contains_iff_mem] at h
        rw [List.append_cons]
        exact ih (Fields.covered_of_find? (h.resolve_left hhere) hnext) hbelow
    | _ => exact absurd (covered_of_isRecord_eq_false rfl h) hhere

end PlaneBridge
