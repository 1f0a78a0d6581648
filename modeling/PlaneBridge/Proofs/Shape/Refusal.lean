import PlaneBridge.Proofs.Shape.Order
import PlaneBridge.Proofs.Shape.Path

/-!
# What no shape reads

A node is a `Misfit` for a shape if it is of another kind than the values of the shape, an integer
out of range, or has such a part where the shape looks; and a record must not be given the same
member twice.  A misfit is never read, `Shape.Misfit.ofJson_ne_ok`, however deep it lies and whatever
stands around it.
-/

namespace PlaneBridge

open Json (Node exists_of_bind_eq_ok)

/-! ## Kinds of nodes -/

/-- Whether a value of the shape may be a node of this kind. -/
def Shape.takes : {α : Type} → Shape α → Node → Bool
  | _, .text, .str _ => true
  | _, .flag, .bool _ => true
  | _, .int32, .num (some (.int _)) => true
  | _, .int64, .num (some (.int _)) => true
  | _, .optional, .null => true
  | _, .optional, .str _ => true
  | _, .textMap, .obj .. => true
  | _, .freeForm, .obj .. => true
  | _, .list _, .arr .. => true
  | _, .record .., .obj .. => true
  | _, .record .., .arr .. => true
  | _, _, _ => false

theorem Json.Node.refuse_ne_ok {α : Type} (n : Node) (a : α) : n.refuse ≠ .ok a := by
  intro h
  cases n with
  | num x => cases x <;> cases h
  | str s => cases s <;> cases h
  | _ => cases h

theorem Json.Node.toInteger_eq_ok {low high i : Int} {n : Node} (h : n.toInteger low high = .ok i) :
    ∃ k : Json.Integer, n = .num (some (.int k)) ∧ low ≤ k.val ∧ k.val ≤ high := by
  unfold toInteger at h
  split at h
  · rename_i k
    split at h
    · rename_i hrange
      exact ⟨k, rfl, hrange⟩
    · cases h
  · exact absurd h (refuse_ne_ok _ _)

/-- A node of another kind is not read. -/
theorem Shape.takes_of_ofJson {rules : Json.Rules} {α : Type} {shape : Shape α} {depth : Nat}
    {n : Node} {a : α} (h : shape.ofJson rules depth n = .ok a) : shape.takes n = true := by
  cases shape with
  | int32 | int64 =>
    obtain ⟨i, hi, -⟩ := Json.exists_of_map_eq_ok h
    obtain ⟨k, rfl, -⟩ := Node.toInteger_eq_ok hi
    rfl
  | _ =>
    cases n with
    | num x => cases x <;> cases h
    | str s => cases s <;> first | rfl | cases h
    | _ => first | rfl | cases h

/-! ## Parts of collections -/

theorem Json.Node.exists_of_toTextEntries {members : List (Option String × Node)}
    {es : Entries String} (h : toTextEntries members = .ok es) {m : Option String × Node}
    (hm : m ∈ members) : ∃ s, m.2.toText = .ok s := by
  induction members generalizing es with
  | nil => cases hm
  | cons first members ih =>
    obtain ⟨_ | name, n⟩ := first
    · cases h
    · rw [toTextEntries] at h
      obtain ⟨s, hs, h⟩ := exists_of_bind_eq_ok h
      obtain ⟨tail, htail, -⟩ := exists_of_bind_eq_ok h
      rcases List.mem_cons.mp hm with rfl | hm
      · exact ⟨s, hs⟩
      · exact ih htail hm

/-! ## Parts of records -/

namespace Fields

variable {rules : Json.Rules} {depth : Nat} {types : List Type}

/-- The shapes of the members in their order. -/
def shapes : {types : List Type} → Fields types → List (Σ α, Shape α)
  | _, .nil => []
  | _, .cons _ shape rest => ⟨_, shape⟩ :: rest.shapes

/-- What has been put into its field has been read. -/
theorem exists_of_putMember {fields : Fields types} {name : String} {sub : Σ α, Shape α}
    (hsub : fields.find? name = some sub) {n : Node} {slots s : Slots types}
    (h : fields.putMember rules depth (some name, n) slots = .ok s) :
    ∃ a, sub.2.ofJson rules depth n = .ok a := by
  induction types with
  | nil =>
    cases fields
    cases hsub
  | cons α types ih =>
    obtain _ | ⟨field, shape, rest⟩ := fields
    obtain ⟨slot, slots⟩ := slots
    rw [find?] at hsub
    rcases putMember_cons h with ⟨hname, -, a, ha, -⟩ | ⟨hname, next, hnext, -⟩
    · rw [if_pos hname.symm] at hsub
      cases hsub
      exact ⟨a, ha⟩
    · rw [if_neg (Ne.symm hname)] at hsub
      exact ih hsub hnext

/-- No field is filled twice. -/
theorem putMember_twice {fields : Fields types} {name : String} (hname : name ∈ fields.names)
    {n n' : Node} {slots s t : Slots types}
    (h : fields.putMember rules depth (some name, n) slots = .ok s) :
    fields.putMember rules depth (some name, n') s ≠ .ok t := by
  intro h'
  induction types with
  | nil =>
    cases fields
    cases hname
  | cons α types ih =>
    obtain _ | ⟨field, shape, rest⟩ := fields
    obtain ⟨slot, slots⟩ := slots
    rcases putMember_cons h with ⟨rfl, -, a, -, rfl⟩ | ⟨hne, next, hnext, rfl⟩
    · rcases putMember_cons h' with ⟨-, hslot, -⟩ | ⟨hne, -⟩
      · cases hslot
      · exact hne rfl
    · rcases putMember_cons h' with ⟨hfield, -⟩ | ⟨-, last, hlast, rfl⟩
      · exact hne hfield
      · exact ih ((List.mem_cons.mp hname).resolve_left hne) hnext hlast

theorem exists_of_ofItems {fields : Fields types} {items : List Node} {ending : Json.Ending}
    {defaults row : Row types} (h : fields.ofItems rules depth defaults items ending = .ok row)
    {i : Nat} {sub : Σ α, Shape α} (hsub : fields.shapes[i]? = some sub) {n : Node}
    (hn : items[i]? = some n) : ∃ a, sub.2.ofJson rules depth n = .ok a := by
  induction types generalizing items i with
  | nil =>
    cases fields
    cases hsub
  | cons α types ih =>
    obtain _ | ⟨field, shape, rest⟩ := fields
    obtain ⟨d, defaults⟩ := defaults
    cases items with
    | nil => cases hn
    | cons m items =>
      rw [ofItems] at h
      obtain ⟨a, ha, h⟩ := exists_of_bind_eq_ok h
      obtain ⟨tail, htail, -⟩ := exists_of_bind_eq_ok h
      cases i with
      | zero =>
        cases hsub
        cases hn
        exact ⟨a, ha⟩
      | succ i => exact ih htail hsub hn

end Fields

theorem Shape.putMembers_of_ofJson {rules : Json.Rules} {R : Type} {types : List Type}
    {fields : Fields types} {default : R} {toRow : R → Row types} {ofRow : Row types → R}
    {hofRow : ∀ r, ofRow (toRow r) = r} {htoRow : ∀ row, toRow (ofRow row) = row} {depth : Nat}
    {members : List (Option String × Node)} {ending : Json.Ending} {r : R}
    (h : (Shape.record fields default toRow ofRow hofRow htoRow).ofJson rules depth
      (.obj members ending) = .ok r) :
    ∃ slots, fields.putMembers rules (depth + 1) members Slots.empty = .ok slots := by
  rw [ofJson] at h
  obtain ⟨slots, hslots, -⟩ := exists_of_bind_eq_ok h
  exact ⟨slots, hslots⟩

/-! ## Misfits -/

/-- The node cannot be a value of the shape. -/
inductive Shape.Misfit : {α : Type} → Shape α → Node → Prop where
  /-- It is of another kind, null where there must be something included. -/
  | kind {α : Type} {shape : Shape α} {n : Node} (h : shape.takes n = false) : Misfit shape n
  | range32 {k : Json.Integer} (h : k.val < -0x80000000 ∨ 0x7fffffff < k.val) :
      Misfit .int32 (.num (some (.int k)))
  | range64 {k : Json.Integer} (h : k.val < -0x8000000000000000 ∨ 0x7fffffffffffffff < k.val) :
      Misfit .int64 (.num (some (.int k)))
  /-- A map of texts holds something else. -/
  | entry {members : List (Option String × Node)} {ending : Json.Ending}
      {m : Option String × Node} (hm : m ∈ members) (h : Misfit .text m.2) :
      Misfit .textMap (.obj members ending)
  | item {α : Type} {item : Shape α} {items : List Node} {ending : Json.Ending} {n : Node}
      (hn : n ∈ items) (h : Misfit item n) : Misfit (.list item) (.arr items ending)
  /-- A member of a known name is a misfit. -/
  | member {R : Type} {types : List Type} {fields : Fields types} {default : R}
      {toRow : R → Row types} {ofRow : Row types → R} {hofRow : ∀ r, ofRow (toRow r) = r}
      {htoRow : ∀ row, toRow (ofRow row) = row} {members : List (Option String × Node)}
      {ending : Json.Ending} {name : String} {n : Node} {sub : Σ β, Shape β}
      (hsub : fields.find? name = some sub) (hn : (some name, n) ∈ members)
      (h : Misfit sub.2 n) :
      Misfit (.record fields default toRow ofRow hofRow htoRow) (.obj members ending)
  /-- A member of a known name is there twice. -/
  | repeated {R : Type} {types : List Type} {fields : Fields types} {default : R}
      {toRow : R → Row types} {ofRow : Row types → R} {hofRow : ∀ r, ofRow (toRow r) = r}
      {htoRow : ∀ row, toRow (ofRow row) = row}
      {before between after : List (Option String × Node)} {ending : Json.Ending} {name : String}
      {n n' : Node} (hname : name ∈ fields.names) :
      Misfit (.record fields default toRow ofRow hofRow htoRow)
        (.obj (before ++ (some name, n) :: (between ++ (some name, n') :: after)) ending)
  /-- Of the members that stand alone, one is a misfit. -/
  | place {R : Type} {types : List Type} {fields : Fields types} {default : R}
      {toRow : R → Row types} {ofRow : Row types → R} {hofRow : ∀ r, ofRow (toRow r) = r}
      {htoRow : ∀ row, toRow (ofRow row) = row} {items : List Node} {ending : Json.Ending}
      {i : Nat} {n : Node} {sub : Σ β, Shape β} (hsub : fields.shapes[i]? = some sub)
      (hn : items[i]? = some n) (h : Misfit sub.2 n) :
      Misfit (.record fields default toRow ofRow hofRow htoRow) (.arr items ending)

/-- A misfit is not read. -/
theorem Shape.Misfit.ofJson_ne_ok {α : Type} {shape : Shape α} {n : Node} (h : shape.Misfit n)
    (rules : Json.Rules) (depth : Nat) (a : α) : shape.ofJson rules depth n ≠ .ok a := by
  intro hread
  induction h generalizing depth with
  | kind h =>
    rw [takes_of_ofJson hread] at h
    cases h
  | range32 h | range64 h =>
    obtain ⟨i, hi, -⟩ := Json.exists_of_map_eq_ok hread
    obtain ⟨k, hk, hlow, hhigh⟩ := Node.toInteger_eq_ok hi
    cases hk
    omega
  | entry hm h ih =>
    obtain ⟨es, hes, -⟩ := exists_of_bind_eq_ok hread
    obtain ⟨s, hs⟩ := Node.exists_of_toTextEntries hes hm
    exact ih depth s hs
  | item hn h ih =>
    obtain ⟨xs, hxs, -⟩ := exists_of_bind_eq_ok hread
    obtain ⟨x, hx⟩ := Json.exists_mapM_eq_ok.mp ⟨xs, hxs⟩ _ hn
    exact ih _ x hx
  | member hsub hn h ih =>
    obtain ⟨slots, hslots⟩ := putMembers_of_ofJson hread
    -- the member can be read before all others
    obtain ⟨before, after, rfl⟩ := List.append_of_mem hn
    obtain ⟨s, hs, -⟩ := Fields.putMembers_cons_eq_ok.mp
      (Fields.putMembers_perm List.perm_middle hslots)
    obtain ⟨b, hb⟩ := Fields.exists_of_putMember hsub hs
    exact ih _ b hb
  | @repeated _ _ _ _ _ _ _ _ before between after _ name n n' hname =>
    obtain ⟨slots, hslots⟩ := putMembers_of_ofJson hread
    -- both members can be read before all others
    have hperm : (before ++ (some name, n) :: (between ++ (some name, n') :: after)).Perm
        ((some name, n) :: (some name, n') :: (before ++ (between ++ after))) :=
      List.perm_middle.trans (.cons _ ((List.perm_middle.append_left before).trans List.perm_middle))
    obtain ⟨s, hs, hrest⟩ := Fields.putMembers_cons_eq_ok.mp (Fields.putMembers_perm hperm hslots)
    obtain ⟨t, ht, -⟩ := Fields.putMembers_cons_eq_ok.mp hrest
    exact Fields.putMember_twice hname hs ht
  | place hsub hn h ih =>
    obtain ⟨row, hrow, -⟩ := exists_of_bind_eq_ok hread
    obtain ⟨b, hb⟩ := Fields.exists_of_ofItems hrow hsub hn
    exact ih _ b hb

end PlaneBridge
