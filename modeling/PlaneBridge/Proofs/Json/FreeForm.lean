import PlaneBridge.Shape.Json
import PlaneBridge.Proofs.Entries
import Mathlib.Data.List.Forall2

/-!
# Values read free-form

`Value.Says` is what reading a node free-form comes to: arrays keep their elements, and of an object
the last member of each name is kept, in the order of the names.  What has been read so can be read
again wherever it is nested no deeper than before: by `readAs_of_toValue` it `Fits` there, and by
`toValue_of_fits` a value that fits is read from its own node.
-/

namespace PlaneBridge.Json

/-- What has come of two steps has come of the first one and then of the second. -/
theorem exists_of_bind_eq_ok {ε α β : Type} {x : Except ε α} {f : α → Except ε β} {b : β}
    (h : x >>= f = .ok b) : ∃ a, x = .ok a ∧ f a = .ok b := by
  cases x with
  | error e => cases h
  | ok a => exact ⟨a, rfl, h⟩

theorem exists_of_map_eq_ok {ε α β : Type} {f : α → β} {x : Except ε α} {b : β}
    (h : f <$> x = .ok b) : ∃ a, x = .ok a ∧ f a = b := by
  cases x with
  | error e => cases h
  | ok a => exact ⟨a, rfl, Except.ok.inj h⟩

theorem map_eq_error {ε α β : Type} {f : α → β} {x : Except ε α} {e : ε} :
    f <$> x = .error e ↔ x = .error e := by
  cases x <;> simp [Functor.map, Except.map]

/-- A list is gone through when each of its elements is. -/
theorem mapM_eq_ok {ε α β : Type} {f : α → Except ε β} {xs : List α} {ys : List β} :
    xs.mapM f = .ok ys ↔ List.Forall₂ (fun x y => f x = .ok y) xs ys := by
  induction xs generalizing ys with
  | nil =>
    rw [List.mapM_nil, List.forall₂_nil_left_iff]
    exact ⟨fun h => (Except.ok.inj h).symm, fun h => congrArg Except.ok h.symm⟩
  | cons x xs ih =>
    rw [List.mapM_cons, List.forall₂_cons_left_iff]
    constructor
    · intro h
      obtain ⟨y, hy, h⟩ := exists_of_bind_eq_ok h
      obtain ⟨tail, htail, h⟩ := exists_of_bind_eq_ok h
      exact ⟨y, tail, hy, ih.mp htail, (Except.ok.inj h).symm⟩
    · rintro ⟨y, tail, hy, htail, rfl⟩
      rw [hy, ih.mpr htail]
      rfl

theorem exists_mapM_eq_ok {ε α β : Type} {f : α → Except ε β} {xs : List α} :
    (∃ ys, xs.mapM f = .ok ys) ↔ ∀ x ∈ xs, ∃ y, f x = .ok y := by
  induction xs with
  | nil => exact ⟨fun _ _ hx => absurd hx List.not_mem_nil, fun _ => ⟨[], rfl⟩⟩
  | cons x xs ih =>
    rw [List.forall_mem_cons, ← ih]
    constructor
    · rintro ⟨ys, h⟩
      obtain ⟨y, tail, hy, htail, -⟩ := List.forall₂_cons_left_iff.mp (mapM_eq_ok.mp h)
      exact ⟨⟨y, hy⟩, tail, mapM_eq_ok.mpr htail⟩
    · rintro ⟨⟨y, hy⟩, tail, htail⟩
      exact ⟨y :: tail, mapM_eq_ok.mpr (.cons hy (mapM_eq_ok.mp htail))⟩

theorem Ending.eq_closed {ending : Ending} {u : Unit} (h : ending.close = .ok u) :
    ending = .closed := by
  cases ending with
  | closed => rfl
  | cut => cases h

mutual

/-- Reading the node as any value gives this one. -/
def Value.Says : Value → Node → Prop
  | .null, n => n = .null
  | .bool b, n => n = .bool b
  | .num x, n => n = .num (some x)
  | .str s, n => n = .str (some s)
  | .arr vs, n => ∃ items, n = .arr items .closed ∧ ItemsSay vs items
  | .obj members, n =>
    ∃ es : Entries Node, n = .obj (es.map fun (name, m) => (some name, m)) .closed ∧
      Entries.Increasing members ∧ (∀ name, name ∈ es.map (·.1) ↔ name ∈ members.map (·.1)) ∧
      MembersSay members es

def ItemsSay : List Value → List Node → Prop
  | [], items => items = []
  | v :: vs, items => ∃ n rest, items = n :: rest ∧ v.Says n ∧ ItemsSay vs rest

/-- Each member holds what the last entry of its name says. -/
def MembersSay : List (String × Value) → Entries Node → Prop
  | [], _ => True
  | (name, v) :: members, es => (∃ n, es.last? name = some n ∧ v.Says n) ∧ MembersSay members es

end

mutual

/-- Inside `depth` arrays and objects the value is not nested too deeply, and its objects are in the
order of their names. -/
def Value.Fits (nesting : Option Nat) (depth : Nat) : Value → Prop
  | .arr items => nesting.all (depth < ·) = true ∧ ItemsFit nesting (depth + 1) items
  | .obj members =>
    nesting.all (depth < ·) = true ∧ Entries.Increasing members ∧
      MembersFit nesting (depth + 1) members
  | _ => True

def ItemsFit (nesting : Option Nat) (depth : Nat) : List Value → Prop
  | [] => True
  | v :: items => v.Fits nesting depth ∧ ItemsFit nesting depth items

def MembersFit (nesting : Option Nat) (depth : Nat) : List (String × Value) → Prop
  | [] => True
  | (_, v) :: members => v.Fits nesting depth ∧ MembersFit nesting depth members

end

variable {nesting : Option Nat}

theorem membersSay_iff {members : List (String × Value)} {es : Entries Node} :
    MembersSay members es ↔ ∀ m ∈ members, ∃ n, es.last? m.1 = some n ∧ m.2.Says n := by
  induction members with
  | nil => simp [MembersSay]
  | cons m members ih => rw [MembersSay, ih, List.forall_mem_cons]

theorem membersFit_iff {depth : Nat} {members : List (String × Value)} :
    MembersFit nesting depth members ↔ ∀ m ∈ members, m.2.Fits nesting depth := by
  induction members with
  | nil => simp [MembersFit]
  | cons m members ih => rw [MembersFit, ih, List.forall_mem_cons]

/-! ## What has been read -/

/-- What reading a node inside `depth` arrays and objects makes of it. -/
def Value.ReadAs (nesting : Option Nat) (depth : Nat) (v : Value) (n : Node) : Prop :=
  v.Says n ∧ v.Fits nesting depth

/-- Entries with what they have been read as. -/
abbrev EntriesRead (nesting : Option Nat) (depth : Nat) : Entries Value → Entries Node → Prop :=
  List.Forall₂ fun r e => r.1 = e.1 ∧ r.2.ReadAs nesting depth e.2

/-- Sorting the entries keeps what the last of each name holds. -/
theorem membersSay_of_entriesRead {depth : Nat} {read : Entries Value} {es : Entries Node}
    (h : EntriesRead nesting depth read es) :
    (∀ name, name ∈ es.map (·.1) ↔ name ∈ read.sort.map (·.1)) ∧ MembersSay read.sort es ∧
      MembersFit nesting depth read.sort := by
  have hlast : ∀ m ∈ read.sort, ∃ n, es.last? m.1 = some n ∧ m.2.ReadAs nesting depth n :=
    fun m hm => Entries.last?_of_forall₂ h (Entries.mem_sort.mp hm)
  refine ⟨fun name => ?_, membersSay_iff.mpr fun m hm => ?_, membersFit_iff.mpr fun m hm => ?_⟩
  · rw [Entries.mem_names_sort, Entries.names_of_forall₂ h]
  · obtain ⟨n, hn, hmeans, _⟩ := hlast m hm
    exact ⟨n, hn, hmeans⟩
  · obtain ⟨_, _, _, hfits⟩ := hlast m hm
    exact hfits

mutual

theorem Node.readAs_of_toValue {depth : Nat} : (n : Node) → {v : Value} →
    n.toValue nesting depth = .ok v → v.ReadAs nesting depth n
  | .null, _, h => by cases h; exact ⟨rfl, trivial⟩
  | .bool _, _, h => by cases h; exact ⟨rfl, trivial⟩
  | .num (some _), _, h => by cases h; exact ⟨rfl, trivial⟩
  | .str (some _), _, h => by cases h; exact ⟨rfl, trivial⟩
  | .num none, _, h => by cases h
  | .str none, _, h => by cases h
  | .cut _ _, _, h => by cases h
  | .arr items ending, v, h => by
    rw [Node.toValue] at h
    split at h
    · rename_i hdepth
      obtain ⟨vs, hitems, h⟩ := exists_of_bind_eq_ok h
      obtain ⟨_, hclosed, h⟩ := exists_of_bind_eq_ok h
      cases Ending.eq_closed hclosed
      cases h
      obtain ⟨hsay, hfit⟩ := itemsSay_of_toItems items hitems
      exact ⟨⟨items, rfl, hsay⟩, hdepth, hfit⟩
    · cases h
  | .obj members ending, v, h => by
    rw [Node.toValue] at h
    split at h
    · rename_i hdepth
      obtain ⟨read, hentries, h⟩ := exists_of_bind_eq_ok h
      obtain ⟨_, hclosed, h⟩ := exists_of_bind_eq_ok h
      cases Ending.eq_closed hclosed
      cases h
      obtain ⟨es, rfl, hall⟩ := entriesRead_of_toEntries members hentries
      obtain ⟨hnames, hsay, hfit⟩ := membersSay_of_entriesRead hall
      have hincreasing := Entries.sort_increasing read
      exact ⟨⟨es, rfl, hincreasing, hnames, hsay⟩, hdepth, hincreasing, hfit⟩
    · cases h

theorem itemsSay_of_toItems {depth : Nat} : (items : List Node) → {vs : List Value} →
    Node.toItems nesting depth items = .ok vs → ItemsSay vs items ∧ ItemsFit nesting depth vs
  | [], _, h => by cases h; exact ⟨rfl, trivial⟩
  | n :: items, _, h => by
    rw [Node.toItems] at h
    obtain ⟨v, hv, h⟩ := exists_of_bind_eq_ok h
    obtain ⟨vs, hvs, h⟩ := exists_of_bind_eq_ok h
    cases h
    obtain ⟨hmeans, hfits⟩ := n.readAs_of_toValue hv
    obtain ⟨hsay, hfit⟩ := itemsSay_of_toItems items hvs
    exact ⟨⟨n, items, rfl, hmeans, hsay⟩, hfits, hfit⟩

/-- The entries in their own order, before they are sorted. -/
theorem entriesRead_of_toEntries {depth : Nat} : (members : List (Option String × Node)) →
    {read : Entries Value} → Node.toEntries nesting depth members = .ok read →
    ∃ es : Entries Node, members = es.map (fun (name, m) => (some name, m)) ∧
      EntriesRead nesting depth read es
  | [], _, h => by cases h; exact ⟨[], rfl, .nil⟩
  | (none, _) :: _, _, h => by cases h
  | (some name, n) :: members, _, h => by
    rw [Node.toEntries] at h
    obtain ⟨v, hv, h⟩ := exists_of_bind_eq_ok h
    obtain ⟨read, hread, h⟩ := exists_of_bind_eq_ok h
    cases h
    obtain ⟨es, hes, hall⟩ := entriesRead_of_toEntries members hread
    exact ⟨(name, n) :: es, by rw [hes]; rfl, .cons ⟨rfl, n.readAs_of_toValue hv⟩ hall⟩

end

/-! ## Reading it again -/

theorem all_lt_mono {d d' : Nat} (h : nesting.all (d < ·) = true) (hle : d' ≤ d) :
    nesting.all (d' < ·) = true := by
  cases nesting with
  | none => rfl
  | some limit =>
    have hlt : d < limit := of_decide_eq_true h
    exact decide_eq_true (Nat.lt_of_le_of_lt hle hlt)

mutual

theorem Value.Fits.mono {d d' : Nat} (hle : d' ≤ d) : (v : Value) → v.Fits nesting d →
    v.Fits nesting d'
  | .null, _ => trivial
  | .bool _, _ => trivial
  | .num _, _ => trivial
  | .str _, _ => trivial
  | .arr items, ⟨hdepth, hitems⟩ =>
    ⟨all_lt_mono hdepth hle, ItemsFit.mono (Nat.succ_le_succ hle) items hitems⟩
  | .obj members, ⟨hdepth, hincreasing, hmembers⟩ =>
    ⟨all_lt_mono hdepth hle, hincreasing, MembersFit.mono (Nat.succ_le_succ hle) members hmembers⟩

theorem ItemsFit.mono {d d' : Nat} (hle : d' ≤ d) : (items : List Value) →
    ItemsFit nesting d items → ItemsFit nesting d' items
  | [], _ => trivial
  | _ :: items, ⟨hv, hitems⟩ => ⟨hv.mono hle, ItemsFit.mono hle items hitems⟩

theorem MembersFit.mono {d d' : Nat} (hle : d' ≤ d) : (members : List (String × Value)) →
    MembersFit nesting d members → MembersFit nesting d' members
  | [], _ => trivial
  | (_, _) :: members, ⟨hv, hmembers⟩ => ⟨hv.mono hle, MembersFit.mono hle members hmembers⟩

end

mutual

theorem toValue_of_fits {depth : Nat} : (v : Value) → v.Fits nesting depth →
    v.node.toValue nesting depth = .ok v
  | .null, _ => rfl
  | .bool _, _ => rfl
  | .num _, _ => rfl
  | .str _, _ => rfl
  | .arr items, ⟨hdepth, hitems⟩ => by
    rw [Value.node, Node.toValue, if_pos hdepth, toItems_of_fit items hitems]
    rfl
  | .obj members, ⟨hdepth, hincreasing, hmembers⟩ => by
    rw [Value.node, Node.toValue, if_pos hdepth, toEntries_of_fit members hmembers]
    exact congrArg (Except.ok ∘ Value.obj) (Entries.sort_eq_self hincreasing)

theorem toItems_of_fit {depth : Nat} : (items : List Value) → ItemsFit nesting depth items →
    Node.toItems nesting depth (itemNodes items) = .ok items
  | [], _ => rfl
  | v :: items, ⟨hv, hitems⟩ => by
    rw [itemNodes, Node.toItems, toValue_of_fits v hv, toItems_of_fit items hitems]
    rfl

theorem toEntries_of_fit {depth : Nat} : (members : List (String × Value)) →
    MembersFit nesting depth members →
    Node.toEntries nesting depth (memberNodes members) = .ok members
  | [], _ => rfl
  | (name, v) :: members, ⟨hv, hmembers⟩ => by
    rw [memberNodes, Node.toEntries, toValue_of_fits v hv, toEntries_of_fit members hmembers]
    rfl

end

end PlaneBridge.Json
