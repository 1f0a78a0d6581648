import PlaneBridge.Proofs.Shape.Depth
import PlaneBridge.Proofs.Shape.Given
import PlaneBridge.Proofs.Shape.Spelled

/-!
# Other spellings of a message

A message that leaves defaults out can be spelled in many ways: its members in another order, others
among them that nobody asks for, members left out that hold what stands for them anyway, or no names
at all but the values alone.  `Shape.Respelled` is the relation of one spelling to another, in parts
at any depth, and `Shape.Respelled.ofJson` says that they are read as the same message.

Other spellings on the level of the text, blanks and escapes, are behind already where there is a
node, so by `Shape.ofText_of_respelled` they may differ as well.
-/

namespace PlaneBridge

open Json (Value Node Spells Writes exists_of_bind_eq_ok)

/-! ## Values that can stand alone -/

/-- A default that can be read back in its shape, and a shape whose values can be read back. -/
def Shape.plain : {α : Type} → Shape α → α → Bool
  | _, .freeForm, members => members.isEmpty
  | _, shape, _ => shape.regular

namespace Fields

variable (rules : Json.Rules) (depth : Nat)

/-- All fields hold plain defaults. -/
def plain : {types : List Type} → Fields types → (defaults : Row types) → Bool
  | _, .nil, _ => true
  | _, .cons _ shape rest, (d, defaults) => shape.plain d && rest.plain defaults

/-- The values of a row as they are written, in the order of the fields. -/
def values {types : List Type} (fields : Fields types) (row : Row types) : List Value :=
  (fields.toMembers row).map (·.2)

/-- Each entry of the row is read wherever it has been written. -/
def ReadBack : {types : List Type} → Fields types → Row types → Prop
  | _, .nil, _ => True
  | _, .cons _ shape rest, (a, row) =>
    (∀ v, shape.Encodes a v → shape.ofJson rules depth v.node = .ok a) ∧ rest.ReadBack row

/-- The name is that of a field, and the node holds its default. -/
def HoldsDefault : {types : List Type} → Fields types → (defaults : Row types) → String → Node →
    Prop
  | _, .nil, _, _, _ => False
  | _, .cons field shape rest, (d, defaults), name, n =>
    if name = field then shape.ofJson rules depth n = .ok d else rest.HoldsDefault defaults name n

end Fields

/-- Other spellings are to be had of the shape. -/
def Shape.flexible : {α : Type} → Shape α → Bool
  | _, .list item => item.flexible
  | _, .record fields default toRow _ _ _ =>
    decide fields.names.Nodup && fields.plain (toRow default)
  | _, _ => true

/-- The second node is another spelling of the first, inside `depth` arrays and objects. -/
inductive Shape.Respelled : {α : Type} → Shape α → (depth : Nat) → Node → Node → Prop where
  | refl {α : Type} {shape : Shape α} {depth : Nat} {n : Node} : Respelled shape depth n n
  | trans {α : Type} {shape : Shape α} {depth : Nat} {n m l : Node}
      (h : Respelled shape depth n m) (h' : Respelled shape depth m l) : Respelled shape depth n l
  /-- An element of a list is spelled another way. -/
  | element {α : Type} {item : Shape α} {depth : Nat} {before after : List Node} {n n' : Node}
      (h : Respelled item (depth + 1) n n') :
      Respelled (.list item) depth (.arr (before ++ n :: after) .closed)
        (.arr (before ++ n' :: after) .closed)
  /-- The members come in another order. -/
  | order {R : Type} {types : List Type} {fields : Fields types} {default : R}
      {toRow : R → Row types} {ofRow : Row types → R} {hofRow : ∀ r, ofRow (toRow r) = r}
      {htoRow : ∀ row, toRow (ofRow row) = row} {depth : Nat}
      {members members' : List (Option String × Node)} (h : members.Perm members') :
      Respelled (.record fields default toRow ofRow hofRow htoRow) depth (.obj members .closed)
        (.obj members' .closed)
  /-- There is one more member that nobody asks for. -/
  | unknown {R : Type} {types : List Type} {fields : Fields types} {default : R}
      {toRow : R → Row types} {ofRow : Row types → R} {hofRow : ∀ r, ofRow (toRow r) = r}
      {htoRow : ∀ row, toRow (ofRow row) = row} {depth : Nat}
      {before after : List (Option String × Node)} {name : String} {n : Node}
      (hname : name ∉ fields.names) (hn : ∃ t, Spells n t) :
      Respelled (.record fields default toRow ofRow hofRow htoRow) depth
        (.obj (before ++ after) .closed) (.obj (before ++ (some name, n) :: after) .closed)
  /-- A member that holds its default is left out. -/
  | default {R : Type} {types : List Type} {fields : Fields types} {default : R}
      {toRow : R → Row types} {ofRow : Row types → R} {hofRow : ∀ r, ofRow (toRow r) = r}
      {htoRow : ∀ row, toRow (ofRow row) = row} {depth : Nat}
      {before after : List (Option String × Node)} {name : String} {n : Node}
      (h : fields.HoldsDefault (.text false) (depth + 1) (toRow default) name n) :
      Respelled (.record fields default toRow ofRow hofRow htoRow) depth
        (.obj (before ++ (some name, n) :: after) .closed) (.obj (before ++ after) .closed)
  /-- What a member holds is spelled another way. -/
  | member {R : Type} {types : List Type} {fields : Fields types} {default : R}
      {toRow : R → Row types} {ofRow : Row types → R} {hofRow : ∀ r, ofRow (toRow r) = r}
      {htoRow : ∀ row, toRow (ofRow row) = row} {depth : Nat}
      {before after : List (Option String × Node)} {name : String} {n n' : Node}
      {sub : Σ β, Shape β} (hsub : fields.find? name = some sub)
      (h : Respelled sub.2 (depth + 1) n n') :
      Respelled (.record fields default toRow ofRow hofRow htoRow) depth
        (.obj (before ++ (some name, n) :: after) .closed)
        (.obj (before ++ (some name, n') :: after) .closed)
  /-- Of the values that stand alone, one is spelled another way. -/
  | value {R : Type} {types : List Type} {fields : Fields types} {default : R}
      {toRow : R → Row types} {ofRow : Row types → R} {hofRow : ∀ r, ofRow (toRow r) = r}
      {htoRow : ∀ row, toRow (ofRow row) = row} {depth : Nat} {before after : List Node}
      {n n' : Node} {sub : Σ β, Shape β} (hsub : fields.shapes[before.length]? = some sub)
      (h : Respelled sub.2 (depth + 1) n n') :
      Respelled (.record fields default toRow ofRow hofRow htoRow) depth
        (.arr (before ++ n :: after) .closed) (.arr (before ++ n' :: after) .closed)
  /-- The values of the record stand alone, in the order of the fields, and those at the end may be
  left out if they are defaults. -/
  | values {R : Type} {types : List Type} {fields : Fields types} {default : R}
      {toRow : R → Row types} {ofRow : Row types → R} {hofRow : ∀ r, ofRow (toRow r) = r}
      {htoRow : ∀ row, toRow (ofRow row) = row} {depth : Nat} {n : Node} {r : R}
      (hr : (Shape.record fields default toRow ofRow hofRow htoRow).ofJson (.text false) depth n =
        .ok r)
      {members : Entries Value} (hmembers : fields.Encodes (toRow r) members) {k : Nat}
      (hrest : (fields.values (toRow r)).drop k =
        (fields.values (toRow default)).drop k) :
      Respelled (.record fields default toRow ofRow hofRow htoRow) depth n
        (.arr ((members.map (·.2.node)).take k) .closed)

/-! ## Values read back -/

section

variable {rules : Json.Rules} {depth : Nat}

theorem Shape.ofJson_freeForm {members : Entries Value} (hincreasing : members.Increasing)
    (hfit : Json.MembersFit rules.nesting (depth + 1) members) :
    Shape.freeForm.ofJson rules depth (Value.obj members).node = .ok members := by
  rw [Value.node, ofJson, Json.toEntries_of_fit members hfit]
  exact congrArg Except.ok (Entries.sort_eq_self hincreasing)

/-- What is the default or has been read can be read wherever it has been written. -/
theorem Shape.ofJson_of_plain {α : Type} {shape : Shape α} {d : α} (hplain : shape.plain d = true)
    {a : α} (ha : a = d ∨ ∃ n, shape.ofJson rules depth n = .ok a) {v : Value}
    (hv : shape.Encodes a v) : shape.ofJson rules depth v.node = .ok a := by
  cases shape with
  | freeForm =>
    obtain rfl : v = .obj a := hv
    rcases ha with rfl | ⟨n, hn⟩
    · obtain rfl : a = [] := List.isEmpty_iff.mp hplain
      exact ofJson_freeForm .nil trivial
    · obtain ⟨-, hincreasing, hfit⟩ := says_of_freeForm hn
      exact ofJson_freeForm hincreasing hfit
  | _ => exact Shape.ofJson_of_encodes rules _ hplain hv depth

end

namespace Fields

variable {rules : Json.Rules} {depth : Nat} {types : List Type}

theorem readBack_of_given {fields : Fields types} {n : Node} {position : Nat}
    {defaults row : Row types} (hplain : fields.plain defaults = true)
    (h : fields.Given rules depth n position defaults row) :
    fields.ReadBack rules depth row := by
  induction types generalizing position with
  | nil => cases fields; trivial
  | cons α types ih =>
    obtain _ | ⟨field, shape, rest⟩ := fields
    obtain ⟨d, defaults⟩ := defaults
    obtain ⟨a, row⟩ := row
    rw [plain, Bool.and_eq_true] at hplain
    obtain ⟨hhead, hrest⟩ := h
    refine ⟨fun v hv => Shape.ofJson_of_plain hplain.1 ?_ hv, ih hplain.2 hrest⟩
    cases hgiven : n.given? position field with
    | none =>
      rw [hgiven] at hhead
      exact .inl hhead
    | some m =>
      rw [hgiven] at hhead
      exact .inr ⟨m, hhead⟩

theorem readBack_defaults {fields : Fields types} {defaults : Row types}
    (hplain : fields.plain defaults = true) : fields.ReadBack rules depth defaults := by
  induction types with
  | nil => cases fields; trivial
  | cons α types ih =>
    obtain _ | ⟨field, shape, rest⟩ := fields
    obtain ⟨d, defaults⟩ := defaults
    rw [plain, Bool.and_eq_true] at hplain
    exact ⟨fun v hv => Shape.ofJson_of_plain hplain.1 (.inl rfl) hv, ih hplain.2⟩

/-- Rows that are read back are told apart by their values. -/
theorem ReadBack.eq_of_values {fields : Fields types} {row row' : Row types}
    (h : fields.ReadBack rules depth row) (h' : fields.ReadBack rules depth row')
    (hvalues : fields.values row = fields.values row') : row = row' := by
  induction types with
  | nil => rfl
  | cons α types ih =>
    obtain _ | ⟨field, shape, rest⟩ := fields
    obtain ⟨a, row⟩ := row
    obtain ⟨a', row'⟩ := row'
    obtain ⟨hhead, htail⟩ := List.cons.inj hvalues
    replace hhead : shape.toJson a = shape.toJson a' := hhead
    have hread := h.1 _ (shape.encodes_toJson a)
    rw [hhead, h'.1 _ (shape.encodes_toJson a')] at hread
    rw [Except.ok.inj hread, ih h.2 h'.2 htail]

theorem ofItems_of_values {rules : Json.Rules} (hstrict : rules.strict = false)
    {fields : Fields types} {defaults row : Row types} (h : fields.ReadBack rules depth row)
    (hdefaults : fields.ReadBack rules depth defaults) {members : Entries Value}
    (hmembers : fields.Encodes row members) {count : Nat}
    (hrest : (fields.values row).drop count = (fields.values defaults).drop count) :
    fields.ofItems rules depth defaults ((members.map (·.2.node)).take count) .closed =
      .ok row := by
  induction types generalizing members count with
  | nil =>
    cases fields
    obtain rfl : members = [] := hmembers
    rw [List.map_nil, List.take_nil]
    rfl
  | cons α types ih =>
    cases count with
    | zero =>
      rw [h.eq_of_values hdefaults hrest]
      obtain _ | ⟨field, shape, rest⟩ := fields
      rw [List.take_zero, ofItems, hstrict]
      rfl
    | succ count =>
      obtain _ | ⟨field, shape, rest⟩ := fields
      obtain ⟨d, defaults⟩ := defaults
      obtain ⟨a, row⟩ := row
      obtain ⟨v, tail, hv, htail, rfl⟩ := hmembers
      have hhead := h.1 v hv
      have hitems := ih h.2 hdefaults.2 htail hrest
      rw [List.map_cons, List.take_succ_cons, ofItems, hhead]
      show (do return (a, ← rest.ofItems rules depth defaults _ .closed)) = _
      rw [hitems]
      rfl

/-! ## Members and values that are spelled another way -/

/-- A default fills its slot with what stands for it anyway. -/
theorem fill_of_putMember {fields : Fields types} {defaults : Row types} {name : String} {n : Node}
    (hdefault : fields.HoldsDefault rules depth defaults name n) {slots s : Slots types}
    (h : fields.putMember rules depth (some name, n) slots = .ok s) :
    s.fill defaults = slots.fill defaults := by
  induction types with
  | nil => rfl
  | cons α types ih =>
    obtain _ | ⟨field, shape, rest⟩ := fields
    obtain ⟨d, defaults⟩ := defaults
    obtain ⟨slot, slots⟩ := slots
    rw [HoldsDefault] at hdefault
    rcases putMember_cons h with ⟨hname, rfl, a, ha, rfl⟩ | ⟨hname, next, hnext, rfl⟩
    · rw [if_pos hname, ha] at hdefault
      rw [Except.ok.inj hdefault]
      rfl
    · rw [if_neg hname] at hdefault
      rw [Slots.fill, Slots.fill, ih hdefault hnext]

theorem putMember_congr {fields : Fields types} {name : String} {sub : Σ β, Shape β}
    (hsub : fields.find? name = some sub) {n n' : Node}
    (hread : ∀ b, sub.2.ofJson rules depth n = .ok b → sub.2.ofJson rules depth n' = .ok b)
    {slots s : Slots types} (h : fields.putMember rules depth (some name, n) slots = .ok s) :
    fields.putMember rules depth (some name, n') slots = .ok s := by
  induction types with
  | nil =>
    cases fields
    cases hsub
  | cons α types ih =>
    obtain _ | ⟨field, shape, rest⟩ := fields
    obtain ⟨slot, slots⟩ := slots
    rw [find?] at hsub
    rcases putMember_cons h with ⟨rfl, rfl, a, ha, rfl⟩ | ⟨hname, next, hnext, rfl⟩
    · rw [if_pos rfl] at hsub
      cases hsub
      exact putMember_cons_self (hread a ha) slots
    · rw [if_neg (Ne.symm hname)] at hsub
      exact putMember_cons_ne hname slot (ih hsub hnext)

/-- A member can be read before all others. -/
theorem putMembers_middle {fields : Fields types} {before after : List (Option String × Node)}
    {m : Option String × Node} {slots t : Slots types} :
    fields.putMembers rules depth (before ++ m :: after) slots = .ok t ↔
      ∃ s, fields.putMember rules depth m slots = .ok s ∧
        fields.putMembers rules depth (before ++ after) s = .ok t := by
  rw [← putMembers_cons_eq_ok]
  exact ⟨putMembers_perm List.perm_middle, putMembers_perm List.perm_middle.symm⟩

/-- A member can be read after all others. -/
theorem putMembers_last {fields : Fields types} {before after : List (Option String × Node)}
    {m : Option String × Node} {slots t : Slots types}
    (h : fields.putMembers rules depth (before ++ m :: after) slots = .ok t) :
    ∃ s, fields.putMembers rules depth (before ++ after) slots = .ok s ∧
      fields.putMember rules depth m s = .ok t := by
  have hperm : (before ++ m :: after).Perm ((before ++ after) ++ [m]) :=
    List.perm_middle.trans (List.perm_append_singleton m (before ++ after)).symm
  have hlast := putMembers_perm hperm h
  rw [putMembers, List.foldlM_append] at hlast
  obtain ⟨s, hs, hlast⟩ := exists_of_bind_eq_ok hlast
  obtain ⟨t', ht, hlast⟩ := exists_of_bind_eq_ok hlast
  cases hlast
  exact ⟨s, hs, ht⟩

theorem ofItems_congr {fields : Fields types} {defaults row : Row types} {before after : List Node}
    {n n' : Node} {sub : Σ β, Shape β} (hsub : fields.shapes[before.length]? = some sub)
    (hread : ∀ b, sub.2.ofJson rules depth n = .ok b → sub.2.ofJson rules depth n' = .ok b)
    (h : fields.ofItems rules depth defaults (before ++ n :: after) .closed = .ok row) :
    fields.ofItems rules depth defaults (before ++ n' :: after) .closed = .ok row := by
  induction types generalizing before with
  | nil =>
    cases fields
    cases hsub
  | cons α types ih =>
    obtain _ | ⟨field, shape, rest⟩ := fields
    obtain ⟨d, defaults⟩ := defaults
    cases before with
    | nil =>
      cases hsub
      rw [List.nil_append, ofItems] at h ⊢
      obtain ⟨a, ha, h⟩ := exists_of_bind_eq_ok h
      rw [hread a ha]
      exact h
    | cons m before =>
      rw [List.cons_append, ofItems] at h ⊢
      obtain ⟨a, ha, h⟩ := exists_of_bind_eq_ok h
      obtain ⟨tail, htail, h⟩ := exists_of_bind_eq_ok h
      rw [ha]
      show (do return (a, ← rest.ofItems rules depth defaults (before ++ n' :: after) .closed)) = _
      rw [ih hsub htail]
      exact h

end Fields

theorem mapM_congr_at {α β : Type} {f : α → Except Json.Error β} {before after : List α}
    {x x' : α} (hx : ∀ b, f x = .ok b → f x' = .ok b) {ys : List β}
    (h : (before ++ x :: after).mapM f = .ok ys) : (before ++ x' :: after).mapM f = .ok ys := by
  rw [Json.mapM_eq_ok] at h ⊢
  induction before generalizing ys with
  | nil =>
    obtain ⟨y, tail, hy, htail, rfl⟩ := List.forall₂_cons_left_iff.mp h
    exact .cons (hx y hy) htail
  | cons z before ih =>
    obtain ⟨y, tail, hy, htail, rfl⟩ := List.forall₂_cons_left_iff.mp h
    exact .cons hy (ih htail)

/-! ## Reading other spellings -/

section

variable {R : Type} {types : List Type} {fields : Fields types} {default : R}
  {toRow : R → Row types} {ofRow : Row types → R} {hofRow : ∀ r, ofRow (toRow r) = r}
  {htoRow : ∀ row, toRow (ofRow row) = row} {rules : Json.Rules} (hstrict : rules.strict = false)
  {depth : Nat} {r : R}

include hstrict

/-- Where members may be left out, an object is read by reading its members. -/
theorem Shape.ofJson_obj_eq_ok {members : List (Option String × Node)} :
    (Shape.record fields default toRow ofRow hofRow htoRow).ofJson rules depth
        (.obj members .closed) = .ok r ↔
      ∃ slots, fields.putMembers rules (depth + 1) members Slots.empty = .ok slots ∧
        ofRow (slots.fill (toRow default)) = r := by
  have hread : (Shape.record fields default toRow ofRow hofRow htoRow).ofJson rules depth
      (.obj members .closed) = (do
        let slots ← fields.putMembers rules (depth + 1) members Slots.empty
        return ofRow (slots.fill (toRow default))) := by
    rw [ofJson]
    simp only [Fields.complete, hstrict]
    rfl
  rw [hread]
  constructor
  · intro h
    obtain ⟨slots, hslots, h⟩ := exists_of_bind_eq_ok h
    exact ⟨slots, hslots, Except.ok.inj h⟩
  · rintro ⟨slots, hslots, rfl⟩
    rw [hslots]
    rfl

end

theorem Shape.ofJson_arr_eq_ok {R : Type} {types : List Type} {fields : Fields types} {default : R}
    {toRow : R → Row types} {ofRow : Row types → R} {hofRow : ∀ r, ofRow (toRow r) = r}
    {htoRow : ∀ row, toRow (ofRow row) = row} {rules : Json.Rules} {depth : Nat} {r : R}
    {items : List Node} :
    (Shape.record fields default toRow ofRow hofRow htoRow).ofJson rules depth
        (.arr items .closed) = .ok r ↔
      fields.ofItems rules (depth + 1) (toRow default) items .closed = .ok (toRow r) := by
  rw [ofJson]
  constructor
  · intro h
    obtain ⟨row, hrow, h⟩ := exists_of_bind_eq_ok h
    rw [← Except.ok.inj h, htoRow]
    exact hrow
  · intro h
    rw [h]
    exact congrArg Except.ok (hofRow r)

theorem Shape.plain_of_regular : {α : Type} → (shape : Shape α) → shape.regular = true → (d : α) →
    shape.plain d = true
  | _, .text, _, _ | _, .flag, _, _ | _, .int32, _, _ | _, .int64, _, _ | _, .optional, _, _
  | _, .textMap, _, _ => rfl
  | _, .list _, h, _ | _, .record .., h, _ => h

theorem Fields.plain_of_regular {types : List Type} {fields : Fields types}
    (h : fields.regular = true) (defaults : Row types) : fields.plain defaults = true := by
  induction types with
  | nil => cases fields; rfl
  | cons α types ih =>
    obtain _ | ⟨field, shape, rest⟩ := fields
    obtain ⟨d, defaults⟩ := defaults
    rw [regular, Bool.and_eq_true] at h
    rw [plain, Bool.and_eq_true]
    exact ⟨shape.plain_of_regular h.1 d, ih h.2 defaults⟩

theorem Shape.flexible_of_regular : {α : Type} → (shape : Shape α) → shape.regular = true →
    shape.flexible = true
  | _, .text, _ | _, .flag, _ | _, .int32, _ | _, .int64, _ | _, .optional, _
  | _, .textMap, _ => rfl
  | _, .list item, h => item.flexible_of_regular h
  | _, .record fields default toRow _ _ _, h => by
    rw [regular, Bool.and_eq_true] at h
    rw [flexible, Bool.and_eq_true]
    exact ⟨h.1, Fields.plain_of_regular h.2 _⟩

theorem Shape.flexible_of_plain {α : Type} {shape : Shape α} {d : α} (h : shape.plain d = true) :
    shape.flexible = true := by
  cases shape with
  | freeForm => rfl
  | _ => exact Shape.flexible_of_regular _ h

namespace Fields

variable {types : List Type}

theorem flexible_of_mem_shapes {fields : Fields types} {defaults : Row types}
    (h : fields.plain defaults = true) {sub : Σ β, Shape β} (hsub : sub ∈ fields.shapes) :
    sub.2.flexible = true := by
  induction types with
  | nil =>
    cases fields
    cases hsub
  | cons α types ih =>
    obtain _ | ⟨field, shape, rest⟩ := fields
    obtain ⟨d, defaults⟩ := defaults
    rw [plain, Bool.and_eq_true] at h
    rcases List.mem_cons.mp hsub with rfl | hsub
    · exact Shape.flexible_of_plain h.1
    · exact ih h.2 hsub

theorem mem_shapes_of_find? {fields : Fields types} {name : String} {sub : Σ β, Shape β}
    (h : fields.find? name = some sub) : sub ∈ fields.shapes := by
  induction types with
  | nil =>
    cases fields
    cases h
  | cons α types ih =>
    obtain _ | ⟨field, shape, rest⟩ := fields
    rw [find?] at h
    split at h
    · cases h
      exact List.mem_cons_self
    · exact List.mem_cons_of_mem _ (ih h)

end Fields

/-- Another spelling is read as the same message. -/
theorem Shape.Respelled.ofJson {α : Type} {shape : Shape α} {depth : Nat} {n n' : Node}
    (h : shape.Respelled depth n n') (hshape : shape.flexible = true) {a : α}
    (hread : shape.ofJson (.text false) depth n = .ok a) :
    shape.ofJson (.text false) depth n' = .ok a := by
  induction h with
  | refl => exact hread
  | trans _ _ ih ih' => exact ih' hshape (ih hshape hread)
  | element _ ih =>
    rw [Shape.ofJson] at hread ⊢
    obtain ⟨xs, hxs, hread⟩ := exists_of_bind_eq_ok hread
    rw [mapM_congr_at (fun b hb => ih hshape hb) hxs]
    exact hread
  | order h =>
    obtain ⟨slots, hslots, hr⟩ := (Shape.ofJson_obj_eq_ok rfl).mp hread
    exact (Shape.ofJson_obj_eq_ok rfl).mpr ⟨slots, Fields.putMembers_perm h hslots, hr⟩
  | unknown hname hn =>
    obtain ⟨slots, hslots, hr⟩ := (Shape.ofJson_obj_eq_ok rfl).mp hread
    obtain ⟨t, ht⟩ := hn
    have hskip := Fields.putMember_unknown (.text false) hname ht.faults?
    exact (Shape.ofJson_obj_eq_ok rfl).mpr
      ⟨slots, Fields.putMembers_middle.mpr ⟨_, hskip _ _, hslots⟩, hr⟩
  | default h =>
    obtain ⟨slots, hslots, hr⟩ := (Shape.ofJson_obj_eq_ok rfl).mp hread
    obtain ⟨s, hs, hlast⟩ := Fields.putMembers_last hslots
    rw [Fields.fill_of_putMember h hlast] at hr
    exact (Shape.ofJson_obj_eq_ok rfl).mpr ⟨s, hs, hr⟩
  | member hsub _ ih =>
    rw [Shape.flexible, Bool.and_eq_true] at hshape
    have hflexible := Fields.flexible_of_mem_shapes hshape.2 (Fields.mem_shapes_of_find? hsub)
    obtain ⟨slots, hslots, hr⟩ := (Shape.ofJson_obj_eq_ok rfl).mp hread
    obtain ⟨s, hs, hothers⟩ := Fields.putMembers_middle.mp hslots
    have hput := Fields.putMember_congr hsub (fun b hb => ih hflexible hb) hs
    exact (Shape.ofJson_obj_eq_ok rfl).mpr
      ⟨slots, Fields.putMembers_middle.mpr ⟨s, hput, hothers⟩, hr⟩
  | value hsub _ ih =>
    rw [Shape.flexible, Bool.and_eq_true] at hshape
    have hflexible := Fields.flexible_of_mem_shapes hshape.2 (List.mem_of_getElem? hsub)
    rw [Shape.ofJson_arr_eq_ok] at hread ⊢
    exact Fields.ofItems_congr hsub (fun b hb => ih hflexible hb) hread
  | values hr hmembers hrest =>
    cases hr.symm.trans hread
    rw [Shape.flexible, Bool.and_eq_true, decide_eq_true_eq] at hshape
    have hback := Fields.readBack_of_given hshape.2 (Shape.given_of_ofJson hshape.1 hread)
    rw [Shape.ofJson_arr_eq_ok]
    exact Fields.ofItems_of_values rfl hback (Fields.readBack_defaults hshape.2) hmembers hrest

/-- Texts whose nodes are spellings of one another are decoded to the same message. -/
theorem Shape.ofText_of_respelled {α : Type} {shape : Shape α} (hshape : shape.flexible = true)
    {text : String} {a : α} (h : shape.ofText false text = .ok a) :
    ∃ n, Writes n text ∧ ∀ n' text', shape.Respelled 0 n n' → Writes n' text' →
      shape.ofText false text' = .ok a := by
  obtain ⟨n, hwrites, hread⟩ := Shape.ofText_eq_ok_iff.mp h
  refine ⟨n, hwrites, fun n' text' hspelling hwrites' => ?_⟩
  exact Shape.ofText_eq_ok_iff.mpr ⟨n', hwrites', hspelling.ofJson hshape hread⟩

end PlaneBridge
