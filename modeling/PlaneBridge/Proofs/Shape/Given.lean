import PlaneBridge.Proofs.Json.FreeForm

/-!
# What a record is read from

A record comes as an object or as an array, members are skipped, and some are left out.
`Json.Node.given?` says where a member is to be found in all this, and `Shape.given_of_ofJson` that
each member of a record that has been read comes from there or is the default.
-/

namespace PlaneBridge

open Json (Node exists_of_bind_eq_ok)

/-- The members that have names. -/
def Json.named (members : List (Option String × Node)) : Entries Node :=
  members.filterMap fun (name, n) => name.map (·, n)

/-- What a node has for the member of a name at a position. -/
def Json.Node.given? (position : Nat) (name : String) : Node → Option Node
  | .obj members _ => (Json.named members).last? name
  | .arr items _ => items[position]?
  | _ => none

namespace Fields

variable (rules : Json.Rules) (depth : Nat)

/-- Every slot holds what the last entry of its name is read as. -/
def Filled (es : Entries Node) : {types : List Type} → Fields types → Slots types → Prop
  | _, .nil, _ => True
  | _, .cons name shape rest, (slot, slots) =>
    (match es.last? name with
      | some n => ∃ a, slot = some a ∧ shape.ofJson rules depth n = .ok a
      | none => slot = none) ∧ rest.Filled es slots

/-- Every member, from a position on, is read from what is given for it or is the default. -/
def Given (n : Node) : {types : List Type} → Fields types → (position : Nat) →
    (defaults row : Row types) → Prop
  | _, .nil, _, _, _ => True
  | _, .cons name shape rest, position, (d, defaults), (a, row) =>
    (match n.given? position name with
      | some m => shape.ofJson rules depth m = .ok a
      | none => a = d) ∧ rest.Given n (position + 1) defaults row

variable {rules depth} {types : List Type}

theorem filled_empty (fields : Fields types) : fields.Filled rules depth [] Slots.empty := by
  induction types with
  | nil => cases fields; trivial
  | cons α types ih =>
    obtain _ | ⟨name, shape, rest⟩ := fields
    exact ⟨rfl, ih rest⟩

/-- An entry of another name leaves the slots filled. -/
theorem Filled.skip {fields : Fields types} {es : Entries Node} {slots : Slots types}
    (h : fields.Filled rules depth es slots) {name : String} (hname : name ∉ fields.names)
    (n : Node) : fields.Filled rules depth (es ++ [(name, n)]) slots := by
  induction types with
  | nil => cases fields; trivial
  | cons α types ih =>
    obtain _ | ⟨field, shape, rest⟩ := fields
    obtain ⟨hhead, hrest⟩ := h
    have hne : name ≠ field := fun heq => hname (heq ▸ List.mem_cons_self)
    refine ⟨?_, ih hrest fun hmem => hname (List.mem_cons_of_mem _ hmem)⟩
    rw [Entries.last?_append, Entries.last?_singleton, if_neg hne, Option.none_or]
    exact hhead

theorem Filled.put {fields : Fields types} (hnodup : fields.names.Nodup) {es : Entries Node}
    {slots slots' : Slots types} (h : fields.Filled rules depth es slots) {name : String} {n : Node}
    (hput : fields.putMember rules depth (some name, n) slots = .ok slots') :
    fields.Filled rules depth (es ++ [(name, n)]) slots' := by
  induction types with
  | nil => cases fields; trivial
  | cons α types ih =>
    obtain _ | ⟨field, shape, rest⟩ := fields
    obtain ⟨slot, slots⟩ := slots
    obtain ⟨hhead, hrest⟩ := h
    obtain ⟨hfield, hnodup⟩ := List.nodup_cons.mp hnodup
    rw [putMember] at hput
    by_cases hname : name = field
    · subst hname
      rw [if_pos rfl] at hput
      split at hput
      · cases hput
      · obtain ⟨a, ha, hput⟩ := exists_of_bind_eq_ok hput
        cases hput
        refine ⟨?_, hrest.skip hfield n⟩
        rw [Entries.last?_append, Entries.last?_singleton, if_pos rfl]
        exact ⟨a, rfl, ha⟩
    · rw [if_neg hname] at hput
      obtain ⟨slots', hslots, hput⟩ := exists_of_bind_eq_ok hput
      cases hput
      refine ⟨?_, ih hnodup hrest hslots⟩
      rw [Entries.last?_append, Entries.last?_singleton, if_neg hname, Option.none_or]
      exact hhead

theorem Filled.putAll {fields : Fields types} (hnodup : fields.names.Nodup)
    {members : List (Option String × Node)} {es : Entries Node} {slots slots' : Slots types}
    (h : fields.Filled rules depth es slots)
    (hput : members.foldlM (fun slots member => fields.putMember rules depth member slots) slots =
      .ok slots') : fields.Filled rules depth (es ++ Json.named members) slots' := by
  induction members generalizing es slots with
  | nil =>
    cases hput
    rw [Json.named, List.filterMap_nil, List.append_nil]
    exact h
  | cons m members ih =>
    obtain ⟨name, n⟩ := m
    rw [List.foldlM_cons] at hput
    cases name with
    | none => cases types <;> cases fields <;> cases hput
    | some name =>
      obtain ⟨next, hstep, hput⟩ := exists_of_bind_eq_ok hput
      have hmembers := ih (h.put hnodup hstep) hput
      rw [List.append_assoc] at hmembers
      exact hmembers

/-- A row comes of slots either with defaults or, where none is empty, without. -/
theorem complete_eq_ok {strict : Bool} {fields : Fields types} {slots : Slots types}
    {defaults row : Row types} (h : fields.complete strict slots defaults = .ok row) :
    fields.rowOf slots = .ok row ∨ slots.fill defaults = row := by
  rw [complete] at h
  split at h
  · cases hrow : fields.rowOf slots with
    | error name => rw [hrow] at h; cases h
    | ok row' => rw [hrow] at h; cases h; exact .inl rfl
  · exact .inr (Except.ok.inj h)

theorem Filled.given {fields : Fields types} {members : List (Option String × Node)}
    {ending : Json.Ending} {slots : Slots types}
    (h : fields.Filled rules depth (Json.named members) slots) (position : Nat)
    {defaults row : Row types} (hrow : fields.rowOf slots = .ok row ∨ slots.fill defaults = row) :
    fields.Given rules depth (.obj members ending) position defaults row := by
  induction types generalizing position with
  | nil => cases fields; trivial
  | cons α types ih =>
    obtain _ | ⟨name, shape, rest⟩ := fields
    obtain ⟨slot, slots⟩ := slots
    obtain ⟨d, defaults⟩ := defaults
    obtain ⟨a, row⟩ := row
    obtain ⟨hhead, hrest⟩ := h
    have hstep : (slot = some a ∨ slot = none ∧ a = d) ∧
        (rest.rowOf slots = .ok row ∨ slots.fill defaults = row) := by
      cases slot with
      | none =>
        rcases hrow with hrow | hrow
        · cases hrow
        · obtain ⟨hd, hfill⟩ := Prod.mk.inj hrow
          exact ⟨.inr ⟨rfl, hd.symm⟩, .inr hfill⟩
      | some b =>
        rcases hrow with hrow | hrow
        · rw [rowOf] at hrow
          obtain ⟨tail, htail, hrow⟩ := exists_of_bind_eq_ok hrow
          cases hrow
          exact ⟨.inl rfl, .inl htail⟩
        · obtain ⟨hb, hfill⟩ := Prod.mk.inj hrow
          exact ⟨.inl (congrArg some hb), .inr hfill⟩
    obtain ⟨hslot, htail⟩ := hstep
    refine ⟨?_, ih hrest (position + 1) htail⟩
    show match (Json.named members).last? name with
      | some m => shape.ofJson rules depth m = .ok a
      | none => a = d
    cases hlast : (Json.named members).last? name with
    | none =>
      rw [hlast] at hhead
      rcases hslot with hslot | ⟨_, hd⟩
      · cases hhead.symm.trans hslot
      · exact hd
    | some n =>
      rw [hlast] at hhead
      obtain ⟨b, hb, hread⟩ := hhead
      rcases hslot with hslot | ⟨hslot, _⟩
      · cases hb.symm.trans hslot
        exact hread
      · cases hb.symm.trans hslot

/-- Behind the last element of an array stand the defaults. -/
theorem given_defaults (fields : Fields types) {items : List Node} {ending : Json.Ending}
    {position : Nat} (h : items.length ≤ position) (defaults : Row types) :
    fields.Given rules depth (.arr items ending) position defaults defaults := by
  induction types generalizing position with
  | nil => cases fields; trivial
  | cons α types ih =>
    obtain _ | ⟨name, shape, rest⟩ := fields
    obtain ⟨d, defaults⟩ := defaults
    refine ⟨?_, ih rest (Nat.le_succ_of_le h) defaults⟩
    show match items[position]? with
      | some m => shape.ofJson rules depth m = .ok d
      | none => d = d
    rw [List.getElem?_eq_none h]

theorem given_of_ofItems {fields : Fields types} {items : List Node} {ending : Json.Ending}
    {position : Nat} {defaults row : Row types}
    (h : fields.ofItems rules depth defaults (items.drop position) ending = .ok row) :
    fields.Given rules depth (.arr items ending) position defaults row := by
  induction types generalizing position with
  | nil => cases fields; trivial
  | cons α types ih =>
    obtain _ | ⟨name, shape, rest⟩ := fields
    obtain ⟨d, defaults⟩ := defaults
    cases hitems : items.drop position with
    | nil =>
      rw [hitems, ofItems] at h
      obtain ⟨_, _, h⟩ := exists_of_bind_eq_ok h
      split at h
      · cases h
      · cases h
        exact given_defaults _ (List.drop_eq_nil_iff.mp hitems) _
    | cons n tail =>
      have hn : items[position]? = some n := by
        rw [← List.head?_drop, hitems, List.head?_cons]
      have htail : items.drop (position + 1) = tail := by
        rw [← List.tail_drop, hitems, List.tail_cons]
      rw [hitems, ofItems] at h
      obtain ⟨a, ha, h⟩ := exists_of_bind_eq_ok h
      obtain ⟨rowTail, hrest, h⟩ := exists_of_bind_eq_ok h
      cases h
      rw [← htail] at hrest
      refine ⟨?_, ih hrest⟩
      show match items[position]? with
        | some m => shape.ofJson rules depth m = .ok a
        | none => a = d
      rw [hn]
      exact ha

end Fields

theorem Shape.given_of_ofJson {rules : Json.Rules} {R : Type} {types : List Type}
    {fields : Fields types} (hnodup : fields.names.Nodup) {default : R} {toRow : R → Row types}
    {ofRow : Row types → R} {hofRow : ∀ r, ofRow (toRow r) = r}
    {htoRow : ∀ row, toRow (ofRow row) = row} {depth : Nat} {n : Node} {r : R}
    (h : (Shape.record fields default toRow ofRow hofRow htoRow).ofJson rules depth n = .ok r) :
    fields.Given rules (depth + 1) n 0 (toRow default) (toRow r) := by
  cases n with
  | obj members ending =>
    rw [ofJson] at h
    obtain ⟨slots, hslots, h⟩ := exists_of_bind_eq_ok h
    obtain ⟨_, _, h⟩ := exists_of_bind_eq_ok h
    obtain ⟨row, hrow, h⟩ := exists_of_bind_eq_ok h
    cases h
    have hfilled : fields.Filled rules (depth + 1) (Json.named members) slots :=
      fields.filled_empty.putAll hnodup hslots
    rw [htoRow]
    exact hfilled.given 0 (Fields.complete_eq_ok hrow)
  | arr items ending =>
    rw [ofJson] at h
    obtain ⟨row, hrow, h⟩ := exists_of_bind_eq_ok h
    cases h
    rw [htoRow]
    have hall : fields.ofItems rules (depth + 1) (toRow default) (items.drop 0) ending = .ok row :=
      hrow
    exact Fields.given_of_ofItems hall
  | num x => cases x <;> cases h
  | str s => cases s <;> cases h
  | _ => cases h

/-- A free-form part is what its node says, and can be read again at its depth. -/
theorem Shape.says_of_freeForm {rules : Json.Rules} {depth : Nat} {n : Node}
    {members : Entries Json.Value} (h : Shape.freeForm.ofJson rules depth n = .ok members) :
    (Json.Value.obj members).Says n ∧ members.Increasing ∧
      Json.MembersFit rules.nesting (depth + 1) members := by
  cases n with
  | obj entries ending =>
    rw [ofJson] at h
    obtain ⟨read, hread, h⟩ := exists_of_bind_eq_ok h
    obtain ⟨_, hclosed, h⟩ := exists_of_bind_eq_ok h
    cases Json.Ending.eq_closed hclosed
    cases h
    obtain ⟨es, rfl, hall⟩ := Json.entriesRead_of_toEntries entries hread
    obtain ⟨hnames, hsay, hfit⟩ := Json.membersSay_of_entriesRead hall
    have hincreasing := Entries.sort_increasing read
    exact ⟨⟨es, rfl, hincreasing, hnames, hsay⟩, hincreasing, hfit⟩
  | num x => cases x <;> cases h
  | str s => cases s <;> cases h
  | _ => cases h

end PlaneBridge
