import PlaneBridge.Shape.Json
import PlaneBridge.Proofs.Json.Printer
import PlaneBridge.Proofs.Shape.Path
import Mathlib.Data.List.Forall2

/-!
# Messages read back from JSON

A message is written with the members of its records in their order, but nothing is promised about
the order in which a map of texts is gone through.  `Shape.Encodes` says which values may come out.
Each of them is read as the message, by `Shape.ofText_printed`, and under rules that let no member
be left out it is not read at all once a field is gone from it, by `Shape.ofText_drop`.

Both hold for shapes that are `regular`.  Of the members of a record, only those are asked for a
field that come under its name, so reading all members comes down to reading those of one field
after the other: `Fields.putMembers_skip`.
-/

namespace PlaneBridge

open Json (Value Node Step Path)

/-! ## Shapes that can be read back -/

mutual

/-- Whether every record has different names for its members, and no part may be anything. -/
def Shape.regular : {α : Type} → Shape α → Bool
  | _, .freeForm => false
  | _, .list item => item.regular
  | _, .record fields .. => decide fields.names.Nodup && fields.regular
  | _, _ => true

def Fields.regular : {types : List Type} → Fields types → Bool
  | _, .nil => true
  | _, .cons _ shape rest => shape.regular && rest.regular

end

mutual

/-- Which values a message may be written as. -/
def Shape.Encodes : {α : Type} → Shape α → α → Value → Prop
  | _, .textMap, m, v =>
    ∃ es : Entries String, es.Perm m.entries ∧ v = .obj (es.map fun (name, s) => (name, .str s))
  | _, .list item, xs, v => ∃ vs, List.Forall₂ item.Encodes xs vs ∧ v = .arr vs
  | _, .record fields _ toRow _ _ _, r, v =>
    ∃ members, fields.Encodes (toRow r) members ∧ v = .obj members
  | _, shape, a, v => v = shape.toJson a

def Fields.Encodes : {types : List Type} → Fields types → Row types → Entries Value → Prop
  | _, .nil, _, members => members = []
  | _, .cons name shape rest, (a, row), members =>
    ∃ v tail, shape.Encodes a v ∧ rest.Encodes row tail ∧ members = (name, v) :: tail

end

theorem Fields.Encodes.cons {α : Type} {types : List Type} {shape : Shape α} {rest : Fields types}
    {name : String} {a : α} {row : Row types} {v : Value} {tail : Entries Value}
    (hv : shape.Encodes a v) (htail : rest.Encodes row tail) :
    (Fields.cons name shape rest).Encodes (a, row) ((name, v) :: tail) :=
  ⟨v, tail, hv, htail, rfl⟩

mutual

theorem Shape.encodes_toJson : {α : Type} → (shape : Shape α) → (a : α) →
    shape.Encodes a (shape.toJson a)
  | _, .text, _ => rfl
  | _, .flag, _ => rfl
  | _, .int32, _ => rfl
  | _, .int64, _ => rfl
  | _, .optional, _ => rfl
  | _, .freeForm, _ => rfl
  | _, .textMap, m => ⟨m.entries, .refl _, rfl⟩
  | _, .list item, xs => by
    refine ⟨xs.map item.toJson, ?_, rfl⟩
    rw [List.forall₂_map_right_iff, List.forall₂_same]
    exact fun x _ => item.encodes_toJson x
  | _, .record fields _ toRow _ _ _, r => ⟨_, fields.encodes_toMembers (toRow r), rfl⟩

theorem Fields.encodes_toMembers : {types : List Type} → (fields : Fields types) →
    (row : Row types) → fields.Encodes row (fields.toMembers row)
  | _, .nil, _ => rfl
  | _, .cons _ shape rest, (a, row) =>
    ⟨_, _, shape.encodes_toJson a, rest.encodes_toMembers row, rfl⟩

end

theorem Fields.Encodes.names {types : List Type} {fields : Fields types} {row : Row types}
    {members : Entries Value} (h : fields.Encodes row members) :
    members.map (·.1) = fields.names := by
  induction types generalizing members with
  | nil =>
    cases fields
    rw [Fields.Encodes] at h
    rw [h]
    rfl
  | cons α types ih =>
    obtain _ | ⟨name, shape, rest⟩ := fields
    obtain ⟨a, row⟩ := row
    obtain ⟨v, tail, _, hrest, rfl⟩ := h
    exact congrArg (name :: ·) (ih hrest)

/-! ## Reading all that was written -/

namespace Fields

variable (rules : Json.Rules) {types : List Type}

/-- The slots with members read one after the other. -/
def putMembers (fields : Fields types) (depth : Nat) (members : List (Option String × Node))
    (slots : Slots types) : Except Json.Error (Slots types) :=
  members.foldlM (fun slots member => fields.putMember rules depth member slots) slots

/-- The entries whose names are kept. -/
def kept (keep : String → Bool) : {types : List Type} → Fields types → Row types → Slots types
  | _, .nil, _ => ()
  | _, .cons name _ rest, (a, row) => (if keep name then some a else none, rest.kept keep row)

theorem rowOf_kept_all (fields : Fields types) (row : Row types) :
    fields.rowOf (fields.kept (fun _ => true) row) = .ok row := by
  induction types with
  | nil => cases fields; rfl
  | cons α types ih =>
    obtain _ | ⟨name, shape, rest⟩ := fields
    obtain ⟨a, row⟩ := row
    rw [kept, if_pos rfl, rowOf, ih]
    rfl

theorem fill_kept_all (fields : Fields types) (row defaults : Row types) :
    (fields.kept (fun _ => true) row).fill defaults = row := by
  induction types with
  | nil => rfl
  | cons α types ih =>
    obtain _ | ⟨name, shape, rest⟩ := fields
    obtain ⟨a, row⟩ := row
    obtain ⟨b, defaults⟩ := defaults
    rw [kept, if_pos rfl, Slots.fill, ih]
    rfl

theorem complete_kept_all (strict : Bool) (fields : Fields types) (row defaults : Row types) :
    fields.complete strict (fields.kept (fun _ => true) row) defaults = .ok row := by
  rw [complete]
  split
  · rw [rowOf_kept_all]
    rfl
  · rw [fill_kept_all]

theorem rowOf_kept_ne {name : String} {fields : Fields types} (h : name ∈ fields.names)
    (row : Row types) : fields.rowOf (fields.kept (fun n => n ≠ name) row) = .error name := by
  induction types with
  | nil => cases fields; cases h
  | cons α types ih =>
    obtain _ | ⟨field, shape, rest⟩ := fields
    obtain ⟨a, row⟩ := row
    by_cases hname : field = name
    · simp [kept, hname, rowOf]
    · have htail : name ∈ rest.names := by
        rcases List.mem_cons.mp h with rfl | h
        · exact absurd rfl hname
        · exact h
      simp only [kept, hname, rowOf, ne_eq, not_false_eq_true, decide_true, if_true]
      rw [ih htail]
      rfl

/-- Members of other names leave a field alone. -/
theorem putMembers_skip {α : Type} {field : String} {shape : Shape α} {rest : Fields types}
    {members : Entries Value} (h : field ∉ members.map (·.1)) (depth : Nat) (slot : Option α)
    (slots : Slots types) :
    (cons field shape rest).putMembers rules depth (Json.memberNodes members) (slot, slots) =
      (slot, ·) <$> rest.putMembers rules depth (Json.memberNodes members) slots := by
  induction members generalizing slots with
  | nil => rfl
  | cons m members ih =>
    obtain ⟨name, v⟩ := m
    have hne : name ≠ field := fun heq => h (heq ▸ List.mem_cons_self)
    have htail : field ∉ members.map (·.1) := fun hmem => h (List.mem_cons_of_mem _ hmem)
    rw [Json.memberNodes, putMembers, putMembers, List.foldlM_cons, List.foldlM_cons, putMember,
      if_neg hne]
    cases rest.putMember rules depth (some name, v.node) slots with
    | error e => rfl
    | ok slots => exact ih htail slots

end Fields

theorem toInteger_of_bounds {low high : Int} {n : Json.Integer} (hlow : low ≤ n.val)
    (hhigh : n.val ≤ high) :
    Node.toInteger low high (Value.num (.int n)).node = .ok n.val := if_pos ⟨hlow, hhigh⟩

theorem toTextEntries_texts (es : Entries String) :
    Node.toTextEntries (Json.memberNodes (es.map fun (name, s) => (name, .str s))) = .ok es := by
  induction es with
  | nil => rfl
  | cons e es ih =>
    rw [List.map_cons, Json.memberNodes, Node.toTextEntries, ih]
    rfl

mutual

theorem Shape.ofJson_of_encodes (rules : Json.Rules) : {α : Type} → (shape : Shape α) →
    shape.regular = true → {a : α} → {v : Value} → shape.Encodes a v → (depth : Nat) →
    shape.ofJson rules depth v.node = .ok a
  | _, .text, _, _, _, rfl, _ => rfl
  | _, .flag, _, _, _, rfl, _ => rfl
  | _, .int32, _, n, _, rfl, depth => by
    have hlow := n.le_toInt
    have hhigh := n.toInt_lt
    rw [Shape.toJson, Shape.ofJson, toInteger_of_bounds (by simpa using hlow) (by simp; omega)]
    exact congrArg Except.ok n.ofInt_toInt
  | _, .int64, _, n, _, rfl, depth => by
    have hlow := n.le_toInt
    have hhigh := n.toInt_lt
    rw [Shape.toJson, Shape.ofJson, toInteger_of_bounds (by simpa using hlow) (by simp; omega)]
    exact congrArg Except.ok n.ofInt_toInt
  | _, .optional, _, some _, _, rfl, _ => rfl
  | _, .optional, _, none, _, rfl, _ => rfl
  | _, .textMap, _, m, _, ⟨es, hperm, hv⟩, _ => by
    rw [hv]
    show (do
      let entries ← Node.toTextEntries (Json.memberNodes _)
      Json.Ending.closed.close
      return TextMap.ofEntries entries) = _
    rw [toTextEntries_texts]
    exact congrArg Except.ok (TextMap.ofEntries_of_perm hperm)
  | _, .list item, hregular, xs, _, hv, depth => by
    obtain ⟨vs, hvs, hv⟩ := hv
    have hitems : (Json.itemNodes vs).mapM (item.ofJson rules (depth + 1)) = .ok xs := by
      clear hv
      induction hvs with
      | nil => rfl
      | cons hx _ ih =>
        rw [Json.itemNodes, List.mapM_cons, item.ofJson_of_encodes rules hregular hx, ih]
        rfl
    rw [hv, Value.node, Shape.ofJson, hitems]
    rfl
  | _, .record fields default toRow ofRow hofRow _, hregular, r, _, hv, depth => by
    obtain ⟨members, hmembers, hv⟩ := hv
    rw [Shape.regular, Bool.and_eq_true, decide_eq_true_eq] at hregular
    have hslots := fields.putMembers_of_encodes rules hregular.1 hregular.2 hmembers
      (fun _ => true) (depth + 1)
    rw [List.filter_true] at hslots
    rw [hv, Value.node, Shape.ofJson]
    show (do
      let slots ← fields.putMembers rules (depth + 1) (Json.memberNodes members) Slots.empty
      Json.Ending.closed.close
      return ofRow (← fields.complete rules.strict slots (toRow default))) = _
    rw [hslots]
    show (do return ofRow (← fields.complete rules.strict _ _)) = _
    rw [fields.complete_kept_all]
    exact congrArg Except.ok (hofRow r)

/-- Of the members that were written some may be left out. -/
theorem Fields.putMembers_of_encodes (rules : Json.Rules) : {types : List Type} →
    (fields : Fields types) → fields.names.Nodup → fields.regular = true → {row : Row types} →
    {members : Entries Value} → fields.Encodes row members → (keep : String → Bool) →
    (depth : Nat) →
    fields.putMembers rules depth (Json.memberNodes (members.filter (keep ·.1))) Slots.empty =
      .ok (fields.kept keep row)
  | _, .nil, _, _, _, _, rfl, _, _ => rfl
  | _, .cons name shape rest, hnodup, hregular, (a, row), _, hmembers, keep, depth => by
    obtain ⟨v, tail, hv, htail, hmembers⟩ := hmembers
    rw [Fields.regular, Bool.and_eq_true] at hregular
    obtain ⟨hname, hnodup⟩ := List.nodup_cons.mp hnodup
    have hrest := rest.putMembers_of_encodes rules hnodup hregular.2 htail keep depth
    have hskip : name ∉ (tail.filter (keep ·.1)).map (·.1) := by
      intro hmem
      rw [← htail.names] at hname
      exact hname ((List.filter_sublist.map _).mem hmem)
    rw [hmembers, List.filter_cons, Fields.kept]
    by_cases hkeep : keep name
    · rw [if_pos hkeep, if_pos hkeep, Json.memberNodes, Fields.putMembers, List.foldlM_cons, Slots.empty,
        Fields.putMember, if_pos rfl, shape.ofJson_of_encodes rules hregular.1 hv]
      show (Fields.cons name shape rest).putMembers rules depth _ (some a, Slots.empty) = _
      rw [Fields.putMembers_skip rules hskip, hrest]
      rfl
    · rw [if_neg hkeep, if_neg hkeep, Slots.empty, Fields.putMembers_skip rules hskip, hrest]
      rfl

end

theorem Shape.toJson_injective {α : Type} {shape : Shape α} (hregular : shape.regular = true)
    {a b : α} (h : shape.toJson a = shape.toJson b) : a = b := by
  have ha := shape.ofJson_of_encodes (.value true) hregular (shape.encodes_toJson a) 0
  have hb := shape.ofJson_of_encodes (.value true) hregular (shape.encodes_toJson b) 0
  rw [h, hb] at ha
  exact (Except.ok.inj ha).symm

/-! ## Reading what a field has been taken from -/

/-- The names of a record's members. -/
def Shape.fieldNames : {α : Type} → Shape α → List String
  | _, .record fields .. => fields.names
  | _, _ => []

/-- The path leads to what a record was written as, and the record has a field of the name. -/
def Shape.HasField {α : Type} (shape : Shape α) (v : Value) (p : Path) (name : String) : Prop :=
  (v.at? p).isSome ∧ ∃ sub, shape.at? p = some sub ∧ name ∈ sub.2.fieldNames

theorem Fields.regular_of_find? {name : String} {types : List Type} {fields : Fields types}
    (h : fields.regular = true) {sub : Σ β, Shape β} (hsub : fields.find? name = some sub) :
    sub.2.regular = true := by
  induction types with
  | nil =>
    cases fields
    cases hsub
  | cons α types ih =>
    obtain _ | ⟨field, shape, rest⟩ := fields
    rw [regular, Bool.and_eq_true] at h
    rw [find?] at hsub
    split at hsub
    · cases Option.some.inj hsub
      exact h.1
    · exact ih h.2 hsub

/-- A member that cannot be read stops the reading of the others. -/
theorem Fields.putMembers_of_error (rules : Json.Rules) {types : List Type} {fields : Fields types}
    (hnodup : fields.names.Nodup) (hregular : fields.regular = true) {row : Row types}
    {members : Entries Value} (hmembers : fields.Encodes row members) {name : String}
    {sub : Σ β, Shape β} (hsub : fields.find? name = some sub) {w : Value}
    (hw : members.lookup name = some w) (f : Value → Value) (depth : Nat) {e : Json.Error}
    (he : ∀ b, sub.2.Encodes b w → sub.2.ofJson rules depth (f w).node = .error e) :
    fields.putMembers rules depth (Json.memberNodes (Entries.modify name f members)) Slots.empty =
      .error e := by
  induction types generalizing members with
  | nil =>
    cases fields
    cases hsub
  | cons α types ih =>
    obtain _ | ⟨field, shape, rest⟩ := fields
    obtain ⟨a, row⟩ := row
    obtain ⟨v, tail, hv, htail, rfl⟩ := hmembers
    obtain ⟨hfield, hnodup⟩ := List.nodup_cons.mp hnodup
    rw [regular, Bool.and_eq_true] at hregular
    rw [Entries.modify_cons]
    rw [Catalog.Keyed.lookup_cons] at hw
    rw [find?] at hsub
    by_cases hname : field = name
    · rw [if_pos hname.symm] at hw
      rw [if_pos hname] at hsub
      cases Option.some.inj hw
      cases Option.some.inj hsub
      rw [if_pos hname, Json.memberNodes, putMembers, List.foldlM_cons, Slots.empty, putMember,
        if_pos rfl]
      show (do
        let slots ← (do return (some (← shape.ofJson rules depth (f w).node), Slots.empty))
        (cons field shape rest).putMembers rules depth _ slots) = _
      rw [he a hv]
      rfl
    · rw [if_neg (Ne.symm hname)] at hw
      rw [if_neg hname] at hsub
      have hskip : field ∉ (Entries.modify name f tail).map (·.1) := by
        rw [Entries.names_modify, htail.names]
        exact hfield
      rw [if_neg hname, Json.memberNodes, putMembers, List.foldlM_cons, Slots.empty, putMember,
        if_pos rfl, shape.ofJson_of_encodes rules hregular.1 hv]
      show (cons field shape rest).putMembers rules depth _ (some a, Slots.empty) = _
      rw [putMembers_skip rules hskip, ih hnodup hregular.2 htail hsub hw]
      rfl

/-- An element that cannot be read stops the reading of the others. -/
theorem mapM_modify_of_error {β : Type} {R : β → Value → Prop} {read : Node → Except Json.Error β}
    (hread : ∀ x v, R x v → read v.node = .ok x) {xs : List β} {vs : List Value}
    (hvs : List.Forall₂ R xs vs) {i : Nat} {w : Value} (hw : vs[i]? = some w) (f : Value → Value)
    {e : Json.Error} (he : ∀ x, R x w → read (f w).node = .error e) :
    (Json.itemNodes (vs.modify i f)).mapM read = .error e := by
  induction hvs generalizing i with
  | nil => cases hw
  | cons hx _ ih =>
    cases i with
    | zero =>
      cases Option.some.inj hw
      rw [List.modify_zero_cons, Json.itemNodes, List.mapM_cons, he _ hx]
      rfl
    | succ i =>
      rw [List.modify_succ_cons, Json.itemNodes, List.mapM_cons, hread _ _ hx, ih hw]
      rfl

theorem Shape.ofJson_drop {rules : Json.Rules} (hstrict : rules.strict = true) {name : String}
    {p : Path} {α : Type} {shape : Shape α} (hregular : shape.regular = true) {a : α} {v : Value}
    (h : shape.Encodes a v) {sub : Σ β, Shape β} (hsub : shape.at? p = some sub)
    (hname : name ∈ sub.2.fieldNames) (hv : (v.at? p).isSome) (depth : Nat) :
    shape.ofJson rules depth (v.modify (Value.drop name) p).node = .error (.missing name) := by
  induction p generalizing α depth v with
  | nil =>
    cases Option.some.inj hsub
    cases shape with
    | record fields default toRow ofRow _ _ =>
      obtain ⟨members, hmembers, rfl⟩ := h
      rw [regular, Bool.and_eq_true, decide_eq_true_eq] at hregular
      have hslots := fields.putMembers_of_encodes rules hregular.1 hregular.2 hmembers
        (fun n => n ≠ name) (depth + 1)
      show (do
        let slots ← fields.putMembers rules (depth + 1)
          (Json.memberNodes (members.filter fun m => m.1 ≠ name)) Slots.empty
        Json.Ending.closed.close
        return ofRow (← fields.complete rules.strict slots (toRow default))) = _
      rw [hslots]
      show (do return ofRow (← fields.complete rules.strict _ _)) = _
      rw [Fields.complete, if_pos hstrict, Fields.rowOf_kept_ne hname]
      rfl
    | _ => cases hname
  | cons s p ih =>
    rw [Shape.at?] at hsub
    obtain ⟨next, hnext, hbelow⟩ := Option.bind_eq_some_iff.mp hsub
    obtain ⟨w, hw⟩ := Option.isSome_iff_exists.mp hv
    obtain ⟨u, hu, hw⟩ := Option.bind_eq_some_iff.mp hw
    have hp : (u.at? p).isSome := Option.isSome_of_eq_some hw
    cases shape with
    | record fields default toRow ofRow _ _ =>
      obtain ⟨members, hmembers, rfl⟩ := h
      cases s with
      | item i => cases hnext
      | member n =>
        rw [regular, Bool.and_eq_true, decide_eq_true_eq] at hregular
        have hslots := Fields.putMembers_of_error rules hregular.1 hregular.2 hmembers hnext hu
          (fun w => w.modify (Value.drop name) p) (depth + 1)
          fun b hb => ih (Fields.regular_of_find? hregular.2 hnext) hb hbelow hp (depth + 1)
        show (do
          let slots ← fields.putMembers rules (depth + 1)
            (Json.memberNodes (Entries.modify n (fun w => w.modify (Value.drop name) p) members))
            Slots.empty
          Json.Ending.closed.close
          return ofRow (← fields.complete rules.strict slots (toRow default))) = _
        rw [hslots]
        rfl
    | list item =>
      obtain ⟨vs, hvs, rfl⟩ := h
      cases s with
      | member n => cases hnext
      | item i =>
        cases Option.some.inj hnext
        have hregular : item.regular = true := hregular
        have hitems := mapM_modify_of_error
          (fun _ _ hx => item.ofJson_of_encodes rules hregular hx (depth + 1)) hvs hu
          (fun w => w.modify (Value.drop name) p) fun _ hx => ih hregular hx hbelow hp (depth + 1)
        show (do
          let xs ← (Json.itemNodes (vs.modify i fun w => w.modify (Value.drop name) p)).mapM
            (item.ofJson rules (depth + 1))
          Json.Ending.closed.close
          return xs) = _
        rw [hitems]
        rfl
    | textMap =>
      cases s with
      | item i => cases hnext
      | member n =>
        -- what a map holds are texts, and nothing below a text is a record
        cases Option.some.inj hnext
        cases p with
        | nil =>
          cases Option.some.inj hbelow
          cases hname
        | cons => cases hbelow
    | _ => cases hnext

/-! ## Texts -/

mutual

theorem Shape.floats_of_encodes : {α : Type} → (shape : Shape α) → shape.regular = true → {a : α} →
    {v : Value} → shape.Encodes a v → v.floats = []
  | _, .text, _, _, _, rfl => rfl
  | _, .flag, _, _, _, rfl => rfl
  | _, .int32, _, _, _, rfl => rfl
  | _, .int64, _, _, _, rfl => rfl
  | _, .optional, _, some _, _, rfl => rfl
  | _, .optional, _, none, _, rfl => rfl
  | _, .textMap, _, _, _, ⟨es, _, hv⟩ => by
    rw [hv, Value.floats, Json.memberFloats_eq, List.flatMap_map]
    exact List.flatMap_eq_nil_iff.mpr fun _ _ => rfl
  | _, .list item, hregular, _, _, hv => by
    obtain ⟨vs, hvs, hv⟩ := hv
    rw [hv, Value.floats]
    clear hv
    induction hvs with
    | nil => rfl
    | cons hx _ ih => rw [Json.itemFloats, item.floats_of_encodes hregular hx, ih]; rfl
  | _, .record fields .., hregular, _, _, hv => by
    obtain ⟨members, hmembers, hv⟩ := hv
    rw [Shape.regular, Bool.and_eq_true] at hregular
    rw [hv]
    exact fields.floats_of_encodes hregular.2 hmembers

theorem Fields.floats_of_encodes : {types : List Type} → (fields : Fields types) →
    fields.regular = true → {row : Row types} → {members : Entries Value} →
    fields.Encodes row members → Json.memberFloats members = []
  | _, .nil, _, _, _, rfl => rfl
  | _, .cons _ shape rest, hregular, (_, _), _, hmembers => by
    obtain ⟨v, tail, hv, htail, hmembers⟩ := hmembers
    rw [Fields.regular, Bool.and_eq_true] at hregular
    rw [hmembers, Json.memberFloats, shape.floats_of_encodes hregular.1 hv,
      rest.floats_of_encodes hregular.2 htail]
    rfl

end

theorem Shape.floatsReadBack_of_encodes {α : Type} {shape : Shape α}
    (hregular : shape.regular = true) {a : α} {v : Value} (h : shape.Encodes a v) :
    Json.FloatsReadBack v.floats := by
  rw [shape.floats_of_encodes hregular h]
  exact fun _ hx => absurd hx List.not_mem_nil

theorem Json.Value.floats_drop (name : String) (v : Value) : (v.drop name).floats ⊆ v.floats := by
  cases v with
  | obj members =>
    rw [drop, floats, floats, Json.memberFloats_eq, Json.memberFloats_eq]
    intro x hx
    obtain ⟨m, hm, hx⟩ := List.mem_flatMap.mp hx
    exact List.mem_flatMap.mpr ⟨m, (List.mem_filter.mp hm).1, hx⟩
  | _ => exact fun _ h => h

theorem Json.Value.floats_modify {f : Value → Value} (hf : ∀ v, (f v).floats ⊆ v.floats) (v : Value)
    (p : Path) : (v.modify f p).floats ⊆ v.floats := by
  induction p generalizing v with
  | nil => exact hf v
  | cons s p ih =>
    rw [modify]
    cases v with
    | obj members =>
      cases s with
      | member name =>
        rw [modifyStep, floats, floats, Json.memberFloats_eq, Json.memberFloats_eq, Entries.modify]
        intro x hx
        obtain ⟨_, hm, hx⟩ := List.mem_flatMap.mp hx
        obtain ⟨m, hmem, rfl⟩ := List.mem_map.mp hm
        refine List.mem_flatMap.mpr ⟨m, hmem, ?_⟩
        split at hx
        · exact ih m.2 hx
        · exact hx
      | item i => exact fun _ h => h
    | arr items =>
      cases s with
      | item i =>
        rw [modifyStep, floats, floats, Json.itemFloats_eq, Json.itemFloats_eq]
        intro x hx
        obtain ⟨w, hw, hx⟩ := List.mem_flatMap.mp hx
        obtain ⟨j, hw⟩ := List.mem_iff_getElem?.mp hw
        rw [List.getElem?_modify] at hw
        obtain ⟨u, hu, rfl⟩ := Option.map_eq_some_iff.mp hw
        refine List.mem_flatMap.mpr ⟨u, List.mem_of_getElem? hu, ?_⟩
        split at hx
        · exact ih u hx
        · exact hx
      | member name => exact fun _ h => h
    | _ => cases s <;> exact fun _ h => h

theorem Shape.ofText_printed {α : Type} {shape : Shape α} (hregular : shape.regular = true) {a : α}
    {v : Value} (h : shape.Encodes a v) (strict : Bool) {text : String}
    (htext : text = v.toText ∨ text = v.toPrettyText) : shape.ofText strict text = .ok a := by
  have hfloats := Shape.floatsReadBack_of_encodes hregular h
  rw [Shape.ofText, Value.ofText_printed hfloats htext, shape.ofJson_of_encodes _ hregular h]
  rfl

theorem Shape.ofText_drop {α : Type} {shape : Shape α} (hregular : shape.regular = true) {a : α}
    {v : Value} (h : shape.Encodes a v) {p : Path} {name : String}
    (hfield : shape.HasField v p name) {text : String}
    (htext : text = (v.modify (Value.drop name) p).toText ∨
      text = (v.modify (Value.drop name) p).toPrettyText) :
    shape.ofText true text = .error (.missing name) := by
  obtain ⟨hv, sub, hsub, hname⟩ := hfield
  have hfloats : Json.FloatsReadBack (v.modify (Value.drop name) p).floats := fun x hx =>
    Shape.floatsReadBack_of_encodes hregular h x
      (Value.floats_modify (Value.floats_drop name) v p hx)
  rw [Shape.ofText, Value.ofText_printed hfloats htext,
    Shape.ofJson_drop rfl hregular h hsub hname hv]
  rfl

end PlaneBridge
