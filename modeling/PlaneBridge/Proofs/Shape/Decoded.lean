import PlaneBridge.Proofs.Json.Spelled
import PlaneBridge.Proofs.Shape.Order

/-!
# Messages decoded as values

A reader that asks for no shape decodes a text as a `Value`, with the members of its objects in the
order of their names, and gives up where arrays and objects lie too deeply within each other.  How
deeply they do in a message is bounded by the `height` of its shape.  So whatever a message holds, a
text of it with its objects sorted is decoded as just this value: `Shape.ofText_sorted`.
-/

namespace PlaneBridge

open Json (Value Node)

namespace Json

/-- The value that a text holds and nothing but that. -/
def Value.ofText (text : String) : Except Error Value := do
  let document := Document.ofText text.toList
  let v ← document.root.toValue (some 127) 0
  if document.trailing then .error .malformed else return v

/-- Texts are decoded with blanks behind them. -/
theorem Writes.append {n : Node} {text blanks : String} (h : Writes n text)
    (hblanks : Blanks blanks.toList) : Writes n (text ++ blanks) := by
  obtain ⟨t, b, htext, hspells, hb⟩ := h
  refine ⟨t, b ++ blanks.toList, ?_, hspells, ?_⟩
  · rw [String.toList_append, htext, List.append_assoc]
  · exact List.forall_mem_append.mpr ⟨hb, hblanks⟩

theorem Value.ofText_of_writes {v : Value} {text : String} (h : Writes v.node text)
    (hfits : v.Fits (some 127) 0) : Value.ofText text = .ok v := by
  rw [Value.ofText, h.ofText]
  show (v.node.toValue (some 127) 0 >>= pure) = _
  rw [bind_pure, toValue_of_fits v hfits]

theorem itemsFit_iff {nesting : Option Nat} {depth : Nat} {items : List Value} :
    ItemsFit nesting depth items ↔ ∀ v ∈ items, v.Fits nesting depth := by
  induction items with
  | nil => simp [ItemsFit]
  | cons v items ih => rw [ItemsFit, ih, List.forall_mem_cons]

/-! ## Numbers in sorted values -/

mutual

/-- Sorting brings in no number. -/
theorem Value.mem_floats_of_sorted {x : Binary64} : (v : Value) → x ∈ v.sorted.floats → x ∈ v.floats
  | .null, h => h
  | .bool _, h => h
  | .num _, h => h
  | .str _, h => h
  | .arr items, h => mem_itemFloats_of_sorted items h
  | .obj members, h => by
    rw [Value.sorted, Value.floats, memberFloats_eq] at h
    obtain ⟨m, hm, hx⟩ := List.mem_flatMap.mp h
    refine mem_memberFloats_of_sorted members ?_
    rw [memberFloats_eq]
    exact List.mem_flatMap.mpr ⟨m, Entries.mem_of_mem_sort hm, hx⟩

theorem mem_itemFloats_of_sorted {x : Binary64} : (items : List Value) →
    x ∈ itemFloats (sortedItems items) → x ∈ itemFloats items
  | [], h => h
  | v :: items, h => by
    rw [sortedItems, itemFloats, List.mem_append] at h
    rw [itemFloats, List.mem_append]
    exact h.imp v.mem_floats_of_sorted (mem_itemFloats_of_sorted items)

theorem mem_memberFloats_of_sorted {x : Binary64} : (members : List (String × Value)) →
    x ∈ memberFloats (sortedMembers members) → x ∈ memberFloats members
  | [], h => h
  | (name, v) :: members, h => by
    rw [sortedMembers, memberFloats, List.mem_append] at h
    rw [memberFloats, List.mem_append]
    exact h.imp v.mem_floats_of_sorted (mem_memberFloats_of_sorted members)

end

end Json

/-! ## How deep a message is -/

mutual

/-- How many arrays and objects lie within each other in a message of the shape, where no part may
be anything. -/
def Shape.height : {α : Type} → Shape α → Nat
  | _, .textMap => 1
  | _, .list item => item.height + 1
  | _, .record fields .. => fields.height + 1
  | _, _ => 0

def Fields.height : {types : List Type} → Fields types → Nat
  | _, .nil => 0
  | _, .cons _ shape rest => max shape.height rest.height

end

variable {limit : Nat}

theorem TextMap.fits_toJson {depth : Nat} (h : depth < limit) (m : TextMap) :
    m.toJson.Fits (some limit) depth := by
  refine ⟨decide_eq_true h, ?_, Json.membersFit_iff.mpr fun member hmember => ?_⟩
  · rw [Entries.Increasing, List.pairwise_map]
    exact m.increasing
  · obtain ⟨entry, -, rfl⟩ := List.mem_map.mp hmember
    trivial

mutual

/-- A message of a shape that is not too high is not nested too deeply. -/
theorem Shape.fits_sorted : {α : Type} → (shape : Shape α) → shape.regular = true → (a : α) →
    (depth : Nat) → depth + shape.height ≤ limit →
    (shape.toJson a).sorted.Fits (some limit) depth
  | _, .text, _, _, _, _ => trivial
  | _, .flag, _, _, _, _ => trivial
  | _, .int32, _, _, _, _ => trivial
  | _, .int64, _, _, _, _ => trivial
  | _, .optional, _, some _, _, _ => trivial
  | _, .optional, _, none, _, _ => trivial
  | _, .textMap, _, m, depth, h => by
    show (Value.obj (m.entries.map fun (name, s) => (name, .str s))).sorted.Fits _ _
    rw [TextMap.sorted_toJson (.refl m.entries)]
    exact m.fits_toJson h
  | _, .list item, hregular, xs, depth, h => by
    rw [Shape.height] at h
    refine ⟨decide_eq_true (by omega), Json.itemsFit_iff.mpr fun v hv => ?_⟩
    rw [Json.sortedItems_eq_map, List.map_map] at hv
    obtain ⟨x, -, rfl⟩ := List.mem_map.mp hv
    exact item.fits_sorted hregular x (depth + 1) (by omega)
  | _, .record fields _ toRow _ _ _, hregular, r, depth, h => by
    rw [Shape.regular, Bool.and_eq_true] at hregular
    rw [Shape.height] at h
    refine ⟨decide_eq_true (by omega), Entries.sort_increasing _,
      Json.membersFit_iff.mpr fun m hm => ?_⟩
    have hsorted := Entries.mem_of_mem_sort hm
    rw [Json.sortedMembers_eq_map] at hsorted
    obtain ⟨member, hmember, rfl⟩ := List.mem_map.mp hsorted
    exact fields.fits_sorted hregular.2 (toRow r) (depth + 1) (by omega) member hmember

theorem Fields.fits_sorted : {types : List Type} → (fields : Fields types) →
    fields.regular = true → (row : Row types) → (depth : Nat) → depth + fields.height ≤ limit →
    ∀ m ∈ fields.toMembers row, m.2.sorted.Fits (some limit) depth
  | _, .nil, _, _, _, _ => fun _ hm => absurd hm List.not_mem_nil
  | _, .cons name shape rest, hregular, (a, row), depth, h => by
    rw [Fields.regular, Bool.and_eq_true] at hregular
    rw [Fields.height] at h
    refine List.forall_mem_cons.mpr ⟨?_, ?_⟩
    · exact shape.fits_sorted hregular.1 a depth (by omega)
    · exact rest.fits_sorted hregular.2 row depth (by omega)

end

/-- A message whose objects have been sorted is decoded as the value that has been printed. -/
theorem Shape.ofText_sorted {α : Type} {shape : Shape α} (hregular : shape.regular = true)
    (hheight : shape.height ≤ 127) (a : α) {text blanks : String}
    (htext : text = (shape.toJson a).sorted.toText ∨ text = (shape.toJson a).sorted.toPrettyText)
    (hblanks : Json.Blanks blanks.toList) :
    Value.ofText (text ++ blanks) = .ok (shape.toJson a).sorted := by
  have hfloats : Json.FloatsReadBack (shape.toJson a).sorted.floats := fun x hx =>
    Shape.floatsReadBack_of_encodes hregular (shape.encodes_toJson a) x
      ((shape.toJson a).mem_floats_of_sorted hx)
  have hfits := shape.fits_sorted hregular a 0 ((Nat.zero_add _).le.trans hheight)
  exact Value.ofText_of_writes ((Value.writes_printed hfloats htext).append hblanks) hfits

end PlaneBridge
