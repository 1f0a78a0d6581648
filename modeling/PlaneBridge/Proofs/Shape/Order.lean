import PlaneBridge.Proofs.Json.FreeForm
import PlaneBridge.Proofs.Shape.Json

/-!
# Members in any order

The members of an object are read one by one, and each goes to a field of its own.  So two that have
both been read could have been read the other way round, by `Fields.putMember_comm`, and an object
whose members come in another order is read as the same record: `Fields.putMembers_perm`.

In particular this holds of a message whose objects have been sorted at every level, which is the
form in which snapshots leave the adapter: `Shape.ofJson_sorted`.
-/

namespace PlaneBridge

open Json (Value Node exists_of_bind_eq_ok)

namespace Fields

variable {rules : Json.Rules} {depth : Nat} {types : List Type}

/-- What reading one member comes to where there is a field: the field's own slot is filled for the
first time, or the member is for one of the other fields. -/
theorem putMember_cons {α : Type} {field : String} {shape : Shape α} {rest : Fields types}
    {name : String} {n : Node} {slot : Option α} {slots : Slots types}
    {s : Slots (α :: types)}
    (h : (cons field shape rest).putMember rules depth (some name, n) (slot, slots) = .ok s) :
    (name = field ∧ slot = none ∧
      ∃ a, shape.ofJson rules depth n = .ok a ∧ s = (some a, slots)) ∨
    (name ≠ field ∧
      ∃ next, rest.putMember rules depth (some name, n) slots = .ok next ∧ s = (slot, next)) := by
  rw [putMember] at h
  by_cases hname : name = field
  · rw [if_pos hname] at h
    cases slot with
    | some b => cases h
    | none =>
      obtain ⟨a, ha, h⟩ := exists_of_bind_eq_ok h
      cases h
      exact .inl ⟨hname, rfl, a, ha, rfl⟩
  · rw [if_neg hname] at h
    obtain ⟨next, hnext, h⟩ := exists_of_bind_eq_ok h
    cases h
    exact .inr ⟨hname, next, hnext, rfl⟩

theorem putMember_cons_self {α : Type} {field : String} {shape : Shape α} {rest : Fields types}
    {n : Node} {a : α} (h : shape.ofJson rules depth n = .ok a) (slots : Slots types) :
    (cons field shape rest).putMember rules depth (some field, n) (none, slots) =
      .ok (some a, slots) := by
  rw [putMember, if_pos rfl, h]
  rfl

theorem putMember_cons_ne {α : Type} {field : String} {shape : Shape α} {rest : Fields types}
    {name : String} (hname : name ≠ field) {n : Node} (slot : Option α) {slots next : Slots types}
    (h : rest.putMember rules depth (some name, n) slots = .ok next) :
    (cons field shape rest).putMember rules depth (some name, n) (slot, slots) =
      .ok (slot, next) := by
  rw [putMember, if_neg hname, h]
  rfl

/-- A member that has been read has a name. -/
theorem exists_name_of_putMember {fields : Fields types} {m : Option String × Node}
    {slots s : Slots types} (h : fields.putMember rules depth m slots = .ok s) :
    ∃ name n, m = (some name, n) := by
  obtain ⟨_ | name, n⟩ := m
  · cases types <;> cases fields <;> cases h
  · exact ⟨name, n, rfl⟩

/-- Two members that have been read one after the other can change places. -/
theorem putMember_comm {fields : Fields types} {m m' : Option String × Node}
    {slots s t : Slots types} (h : fields.putMember rules depth m slots = .ok s)
    (h' : fields.putMember rules depth m' s = .ok t) :
    ∃ u, fields.putMember rules depth m' slots = .ok u ∧
      fields.putMember rules depth m u = .ok t := by
  obtain ⟨name, n, rfl⟩ := exists_name_of_putMember h
  obtain ⟨name', n', rfl⟩ := exists_name_of_putMember h'
  induction types with
  | nil =>
    -- without fields both are skipped, and there is only one row of no slots
    cases fields
    exact ⟨s, h', h⟩
  | cons α types ih =>
    obtain _ | ⟨field, shape, rest⟩ := fields
    obtain ⟨slot, slots⟩ := slots
    rcases putMember_cons h with ⟨hname, rfl, a, ha, rfl⟩ | ⟨hname, next, hnext, rfl⟩
    · -- the slot has been filled, so the other member cannot be for this field
      rcases putMember_cons h' with ⟨_, hfilled, _⟩ | ⟨hname', next, hnext, rfl⟩
      · cases hfilled
      · subst hname
        exact ⟨(none, next), putMember_cons_ne hname' none hnext, putMember_cons_self ha next⟩
    · rcases putMember_cons h' with ⟨hname', rfl, a, ha, rfl⟩ | ⟨hname', last, hlast, rfl⟩
      · subst hname'
        exact ⟨(some a, slots), putMember_cons_self ha slots,
          putMember_cons_ne hname (some a) hnext⟩
      · obtain ⟨u, hu, hlast⟩ := ih hnext hlast
        exact ⟨(slot, u), putMember_cons_ne hname' slot hu, putMember_cons_ne hname slot hlast⟩

theorem putMembers_cons_eq_ok {fields : Fields types} {m : Option String × Node}
    {members : List (Option String × Node)} {slots t : Slots types} :
    fields.putMembers rules depth (m :: members) slots = .ok t ↔
      ∃ s, fields.putMember rules depth m slots = .ok s ∧
        fields.putMembers rules depth members s = .ok t := by
  rw [putMembers, List.foldlM_cons]
  constructor
  · exact exists_of_bind_eq_ok
  · rintro ⟨s, hs, ht⟩
    rw [hs]
    exact ht

/-- An object that has been read is read the same with its members in any other order. -/
theorem putMembers_perm {fields : Fields types} {members members' : List (Option String × Node)}
    (hperm : members.Perm members') {slots s : Slots types}
    (h : fields.putMembers rules depth members slots = .ok s) :
    fields.putMembers rules depth members' slots = .ok s := by
  induction hperm generalizing slots with
  | nil => exact h
  | cons m _ ih =>
    obtain ⟨next, hnext, hrest⟩ := putMembers_cons_eq_ok.mp h
    exact putMembers_cons_eq_ok.mpr ⟨next, hnext, ih hrest⟩
  | swap m m' members =>
    obtain ⟨first, hfirst, h⟩ := putMembers_cons_eq_ok.mp h
    obtain ⟨second, hsecond, hrest⟩ := putMembers_cons_eq_ok.mp h
    obtain ⟨u, hu, hlast⟩ := putMember_comm hfirst hsecond
    exact putMembers_cons_eq_ok.mpr ⟨u, hu, putMembers_cons_eq_ok.mpr ⟨second, hlast, hrest⟩⟩
  | trans _ _ ih ih' => exact ih' (ih h)

end Fields

/-! ## Sorted messages -/

theorem Json.memberNodes_eq_map (members : Entries Value) :
    Json.memberNodes members = members.map fun (name, v) => (some name, v.node) := by
  induction members with
  | nil => rfl
  | cons m members ih => rw [Json.memberNodes, ih, List.map_cons]

theorem Json.sortedItems_eq_map (items : List Value) :
    Json.sortedItems items = items.map Value.sorted := by
  induction items with
  | nil => rfl
  | cons v rest ih => rw [Json.sortedItems, ih, List.map_cons]

theorem Json.sortedMembers_eq_map (members : Entries Value) :
    Json.sortedMembers members = members.map fun (name, v) => (name, v.sorted) := by
  induction members with
  | nil => rfl
  | cons m members ih => rw [Json.sortedMembers, ih, List.map_cons]

theorem Json.names_sortedMembers (members : Entries Value) :
    (Json.sortedMembers members).map (·.1) = members.map (·.1) := by
  rw [Json.sortedMembers_eq_map, List.map_map]
  rfl

theorem TextMap.sorted_toJson {es : Entries String} {m : TextMap} (h : es.Perm m.entries) :
    (Value.obj (es.map fun (name, s) => (name, .str s))).sorted = m.toJson := by
  have hsame : Json.sortedMembers (es.map fun (name, s) => (name, Value.str s)) =
      es.map fun (name, s) => (name, Value.str s) := by
    rw [Json.sortedMembers_eq_map, List.map_map]
    rfl
  have hincreasing : Entries.Increasing
      (m.entries.map fun (name, s) => (name, Value.str s)) := by
    rw [Entries.Increasing, List.pairwise_map]
    exact m.increasing
  rw [Value.sorted, hsame, Entries.sort_of_perm (h.map _) hincreasing]
  rfl

mutual

/-- A message is read back when its objects have been sorted. -/
theorem Shape.ofJson_sorted (rules : Json.Rules) : {α : Type} → (shape : Shape α) →
    shape.regular = true → {a : α} → {v : Value} → shape.Encodes a v → (depth : Nat) →
    shape.ofJson rules depth v.sorted.node = .ok a
  | _, .text, hregular, _, _, rfl, depth =>
    Shape.text.ofJson_of_encodes rules hregular rfl depth
  | _, .flag, hregular, _, _, rfl, depth =>
    Shape.flag.ofJson_of_encodes rules hregular rfl depth
  | _, .int32, hregular, _, _, rfl, depth =>
    Shape.int32.ofJson_of_encodes rules hregular rfl depth
  | _, .int64, hregular, _, _, rfl, depth =>
    Shape.int64.ofJson_of_encodes rules hregular rfl depth
  | _, .optional, _, some _, _, rfl, _ => rfl
  | _, .optional, _, none, _, rfl, _ => rfl
  | _, .textMap, hregular, m, _, ⟨es, hperm, hv⟩, depth => by
    rw [hv, TextMap.sorted_toJson hperm]
    exact Shape.textMap.ofJson_of_encodes rules hregular (Shape.textMap.encodes_toJson m) depth
  | _, .list item, hregular, xs, _, hv, depth => by
    obtain ⟨vs, hvs, hv⟩ := hv
    have hitems : (Json.itemNodes (Json.sortedItems vs)).mapM (item.ofJson rules (depth + 1)) =
        .ok xs := by
      clear hv
      induction hvs with
      | nil => rfl
      | cons hx _ ih =>
        rw [Json.sortedItems, Json.itemNodes, List.mapM_cons,
          item.ofJson_sorted rules hregular hx, ih]
        rfl
    rw [hv, Value.sorted, Value.node, Shape.ofJson, hitems]
    rfl
  | _, .record fields default toRow ofRow hofRow _, hregular, r, _, hv, depth => by
    obtain ⟨members, hmembers, hv⟩ := hv
    rw [Shape.regular, Bool.and_eq_true, decide_eq_true_eq] at hregular
    have hslots := fields.putMembers_sorted rules hregular.1 hregular.2 hmembers (depth + 1)
    -- no name comes twice, so sorting has only moved the members
    have hnodup : ((Json.sortedMembers members).map (·.1)).Nodup := by
      rw [Json.names_sortedMembers, hmembers.names]
      exact hregular.1
    have hperm : (Json.memberNodes (Json.sortedMembers members)).Perm
        (Json.memberNodes (Entries.sort (Json.sortedMembers members))) := by
      rw [Json.memberNodes_eq_map, Json.memberNodes_eq_map]
      exact (Entries.sort_perm hnodup).symm.map _
    rw [hv, Value.sorted, Value.node, Shape.ofJson]
    show (do
      let slots ← fields.putMembers rules (depth + 1)
        (Json.memberNodes (Entries.sort (Json.sortedMembers members))) Slots.empty
      Json.Ending.closed.close
      return ofRow (← fields.complete rules.strict slots (toRow default))) = _
    rw [Fields.putMembers_perm hperm hslots]
    show (do return ofRow (← fields.complete rules.strict _ _)) = _
    rw [fields.complete_kept_all]
    exact congrArg Except.ok (hofRow r)

theorem Fields.putMembers_sorted (rules : Json.Rules) : {types : List Type} →
    (fields : Fields types) → fields.names.Nodup → fields.regular = true → {row : Row types} →
    {members : Entries Value} → fields.Encodes row members → (depth : Nat) →
    fields.putMembers rules depth (Json.memberNodes (Json.sortedMembers members)) Slots.empty =
      .ok (fields.kept (fun _ => true) row)
  | _, .nil, _, _, _, _, rfl, _ => rfl
  | _, .cons name shape rest, hnodup, hregular, (a, row), _, hmembers, depth => by
    obtain ⟨v, tail, hv, htail, hmembers⟩ := hmembers
    rw [Fields.regular, Bool.and_eq_true] at hregular
    obtain ⟨hname, hnodup⟩ := List.nodup_cons.mp hnodup
    have hrest := rest.putMembers_sorted rules hnodup hregular.2 htail depth
    have hskip : name ∉ (Json.sortedMembers tail).map (·.1) := by
      rw [Json.names_sortedMembers, htail.names]
      exact hname
    rw [hmembers, Json.sortedMembers, Json.memberNodes]
    refine Fields.putMembers_cons_eq_ok.mpr ⟨(some a, Slots.empty), ?_, ?_⟩
    · exact Fields.putMember_cons_self (shape.ofJson_sorted rules hregular.1 hv depth) Slots.empty
    · rw [Fields.putMembers_skip rules hskip, hrest]
      rfl

end

end PlaneBridge
