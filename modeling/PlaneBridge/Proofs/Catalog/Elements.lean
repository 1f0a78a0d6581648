import PlaneBridge.Proofs.Catalog.Snapshot
import PlaneBridge.Proofs.Shape.Depth

/-!
# The elements of a listing

A listing is an object with one member that matters, and an array of elements in that.  It is read
by reading each of the elements on its own, `Snapshot.readListing_of_lists`: the object and the
array around an element, the other members and the elements before and behind make no difference.
-/

namespace PlaneBridge

open Json (Node Spells SpellsItems SpellsMembers Blanks)

/-! ## Parts of what is spelled out -/

theorem Json.SpellsItems.exists_spells {items : List Node} {t : List Char} :
    SpellsItems items t → ∀ n ∈ items, ∃ u, Spells n u
  | .last h _, n, hn => by
    rw [List.mem_singleton.mp hn]
    exact ⟨_, h⟩
  | .cons h _ hrest, n, hn => by
    rcases List.mem_cons.mp hn with rfl | hn
    · exact ⟨_, h⟩
    · exact hrest.exists_spells n hn

theorem Json.SpellsMembers.exists_spells {members : List (Option String × Node)} {t : List Char} :
    SpellsMembers members t → ∀ m ∈ members, ∃ u, Spells m.2 u
  | .blank _ h, m, hm => h.exists_spells m hm
  | .last _ _ h _, m, hm => by
    rw [List.mem_singleton.mp hm]
    exact ⟨_, h⟩
  | .cons _ _ h _ hrest, m, hm => by
    rcases List.mem_cons.mp hm with rfl | hm
    · exact ⟨_, h⟩
    · exact hrest.exists_spells m hm

theorem Json.Spells.items {items : List Node} {ending : Json.Ending} {t : List Char} :
    Spells (.arr items ending) t → ∀ n ∈ items, ∃ u, Spells n u
  | .blank _ h => h.items
  | .noItems _ => fun _ hn => absurd hn List.not_mem_nil
  | .arr h => h.exists_spells

theorem Json.Spells.members {members : List (Option String × Node)} {ending : Json.Ending}
    {t : List Char} : Spells (.obj members ending) t → ∀ m ∈ members, ∃ u, Spells m.2 u
  | .blank _ h => h.members
  | .noMembers _ => fun _ hm => absurd hm List.not_mem_nil
  | .obj h => h.exists_spells

/-- A text that spells a node is read as the node is, on its own. -/
theorem Shape.ofText_of_spells {α : Type} (shape : Shape α) (strict : Bool) {n : Node}
    {t b : List Char} (h : Spells n t) (hb : Blanks b) :
    shape.ofText strict (String.ofList (t ++ b)) = shape.ofJson (.text strict) 0 n := by
  rw [Shape.ofText, String.toList_ofList, Json.Document.ofText_of_spells h hb]
  show (shape.ofJson (.text strict) 0 n >>= pure) = _
  rw [bind_pure]

namespace Catalog

/-! ## Listings -/

/-- The fields of a listing. -/
def Listing.fields {α : Type} (item : Shape α) : Fields [List α] := .cons "list" (.list item) .nil

/-- The members are those of a listing of these elements: all names are texts, and one member has
the name of the list. -/
def ListsMembers (members : List (Option String × Node)) (items : List Node) : Prop :=
  (∀ m ∈ members, m.1 ≠ none) ∧
    members.filter (·.1 = some "list") = [(some "list", .arr items .closed)]

namespace Listing

section

variable {α : Type} {item : Shape α} {members : List (Option String × Node)} {rules : Json.Rules}

/-- Members other than the list are passed over. -/
theorem putMembers_others (hnames : ∀ m ∈ members, m.1 ≠ none)
    (hlist : ∀ m ∈ members, m.1 ≠ some "list") (hwhole : ∀ m ∈ members, m.2.faults? = none)
    (depth : Nat) (slots : Slots [List α]) :
    (fields item).putMembers rules depth members slots = .ok slots := by
  refine Fields.putMembers_unknown rules (fun m hm => ?_) depth slots
  obtain ⟨_ | name, n⟩ := m
  · exact absurd rfl (hnames _ hm)
  · refine ⟨name, n, rfl, fun hmem => ?_, hwhole _ hm⟩
    exact hlist _ hm (congrArg some (List.mem_singleton.mp hmem))

variable {items : List Node} (hregular : item.regular = true) (h : ListsMembers members items)
  (hwhole : ∀ m ∈ members, m.2.faults? = none)

include hregular

theorem putMember_list : (fields item).putMember rules 1 (some "list", .arr items .closed)
    (none, ()) = (fun xs => (some xs, ())) <$> items.mapM (item.ofJson rules 0) := by
  have hdepth : item.ofJson rules 2 = item.ofJson rules 0 :=
    funext fun n => item.ofJson_depth rules _ _ hregular n
  rw [fields, Fields.putMember, if_pos rfl, Shape.ofJson, hdepth]
  cases items.mapM (item.ofJson rules 0) <;> rfl

include h hwhole

/-- Of the members of a listing only the list counts. -/
theorem putMembers_eq : (fields item).putMembers rules 1 members Slots.empty =
    (fun xs => (some xs, ())) <$> items.mapM (item.ofJson rules 0) := by
  obtain ⟨hnames, hlist⟩ := h
  obtain ⟨before, after, rfl, hbefore, -, hafter⟩ := List.filter_eq_cons_iff.mp hlist
  simp only [decide_eq_true_eq] at hbefore
  have hafter : ∀ m ∈ after, m.1 ≠ some "list" := fun m hm =>
    of_decide_eq_false (Bool.eq_false_iff.mpr (List.filter_eq_nil_iff.mp hafter m hm))
  rw [List.forall_mem_append, List.forall_mem_cons] at hnames hwhole
  rw [Fields.putMembers, List.foldlM_append]
  show ((fields item).putMembers rules 1 before Slots.empty >>= _) = _
  rw [putMembers_others hnames.1 hbefore hwhole.1]
  show ((fields item).putMember rules 1 _ (none, ()) >>=
    fun slots => (fields item).putMembers rules 1 after slots) = _
  rw [putMember_list hregular]
  cases items.mapM (item.ofJson rules 0) with
  | error e => rfl
  | ok xs => exact putMembers_others hnames.2.2 hafter hwhole.2.2 1 _

/-- An object with one list of elements is read as that list. -/
theorem ofJson_obj (hstrict : rules.strict = false) :
    (Listing.shape item).ofJson rules 0 (.obj members .closed) =
      Listing.mk <$> items.mapM (item.ofJson rules 0) := by
  rw [Listing.shape, Shape.ofJson]
  show ((fields item).putMembers rules 1 _ Slots.empty >>= _) = _
  rw [putMembers_eq hregular h hwhole]
  cases items.mapM (item.ofJson rules 0) with
  | error e => rfl
  | ok xs =>
    simp only [Fields.complete, hstrict]
    rfl

end

end Listing

namespace Snapshot

/-- The text is a JSON object with one list of elements, which are laid out as these nodes. -/
def Lists (text : String) (items : List Node) : Prop :=
  ∃ members t b, text.toList = t ++ b ∧ Spells (.obj members .closed) t ∧ Blanks b ∧
    ListsMembers members items

theorem Lists.exists_spells {text : String} {items : List Node} (h : Lists text items) :
    ∀ n ∈ items, ∃ t, Spells n t := by
  obtain ⟨members, t, b, -, hspells, -, -, hlist⟩ := h
  have hmem : (some "list", Node.arr items .closed) ∈
      members.filter (·.1 = some "list") := hlist ▸ List.mem_cons_self
  obtain ⟨u, hu⟩ := hspells.members _ (List.mem_of_mem_filter hmem)
  exact hu.items

/-- The element is read as this when its text stands alone. -/
def Decodes {α : Type} (item : Shape α) (n : Node) (a : α) : Prop :=
  ∃ t, Spells n t ∧ item.ofText false (String.ofList t) = .ok a

theorem decodes_iff {α : Type} {item : Shape α} {n : Node} (h : ∃ t, Spells n t) {a : α} :
    Decodes item n a ↔ item.ofJson (.text false) 0 n = .ok a := by
  have halone : ∀ t, Spells n t → item.ofText false (String.ofList t) =
      item.ofJson (.text false) 0 n := by
    intro t ht
    rw [← item.ofText_of_spells false ht Json.Blanks.nil, List.append_nil]
  constructor
  · rintro ⟨t, ht, ha⟩
    rw [← halone t ht]
    exact ha
  · intro ha
    obtain ⟨t, ht⟩ := h
    exact ⟨t, ht, (halone t ht).trans ha⟩

/-- An object is printed as a listing if its members are those of one. -/
theorem lists_toText {members : Entries Json.Value}
    (hfloats : Json.FloatsReadBack (Json.memberFloats members)) {items : List Node}
    (h : ListsMembers (Json.memberNodes members) items) :
    Lists (Json.Value.obj members).toText items := by
  refine ⟨_, _, [], ?_, (Json.Value.obj members).spells_compact hfloats, Json.Blanks.nil, h⟩
  rw [Json.Value.toText, String.toList_ofList, List.append_nil]

/-- A listing is read by reading its elements. -/
theorem readListing_of_lists {α : Type} {item : Shape α} (hregular : item.regular = true)
    {text : String} {items : List Node} (h : Lists text items) (kind : Kind) :
    readListing kind item text =
      (items.mapM (item.ofJson (.text false) 0)).mapError fun cause => ⟨kind, cause⟩ := by
  obtain ⟨members, t, b, htext, hspells, hb, hmembers⟩ := h
  have hwhole : ∀ m ∈ members, m.2.faults? = none := fun m hm =>
    have ⟨_, hm⟩ := hspells.members m hm
    hm.faults?
  have hread : (Listing.shape item).ofText false text =
      Listing.mk <$> items.mapM (item.ofJson (.text false) 0) := by
    have hlist : text = String.ofList (t ++ b) := by rw [← htext, String.ofList_toList]
    rw [hlist, Shape.ofText_of_spells _ _ hspells hb]
    exact Listing.ofJson_obj hregular hmembers hwhole rfl
  rw [readListing, read, hread]
  cases items.mapM (item.ofJson (.text false) 0) <;> rfl

end Snapshot
end Catalog
end PlaneBridge
