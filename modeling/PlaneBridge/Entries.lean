/-!
# Entries in the order of their names

Lists of named entries whose names are strictly increasing in the order of their code points, which
is also the order of their UTF-8 bytes.  Such a list is the one written form of a map with those
entries.

The main statements are `sort_increasing`, that sorting gives such a list, and
`sort_eq_self`, that it leaves one alone.
-/

namespace PlaneBridge

/-- A list of named entries. -/
abbrev Entries (β : Type) := List (String × β)

namespace Entries

variable {β : Type}

/-- The names are strictly increasing. -/
abbrev Increasing (entries : Entries β) : Prop := entries.Pairwise (·.1 < ·.1)

/-- An entry put into its place.  An entry of the same name is replaced. -/
def insert (name : String) (b : β) : Entries β → Entries β
  | [] => [(name, b)]
  | (n, c) :: rest =>
    if name < n then (name, b) :: (n, c) :: rest
    else if name = n then (name, b) :: rest
    else (n, c) :: insert name b rest

/-- The last entry of each name, in the order of the names. -/
def sort (entries : Entries β) : Entries β :=
  entries.foldl (fun sorted e => sorted.insert e.1 e.2) []

theorem name_of_mem_insert {name : String} {b : β} {entries : Entries β} {e : String × β}
    (h : e ∈ insert name b entries) : e = (name, b) ∨ e ∈ entries := by
  induction entries with
  | nil => simpa [insert] using h
  | cons head rest ih =>
    obtain ⟨n, c⟩ := head
    simp only [insert] at h
    split at h
    · simpa using h
    · split at h
      · rcases List.mem_cons.1 h with h | h
        · exact .inl h
        · exact .inr (.tail _ h)
      · rcases List.mem_cons.1 h with h | h
        · exact .inr (h ▸ .head _)
        · exact (ih h).imp_right (.tail _)

theorem insert_increasing {name : String} {b : β} {entries : Entries β}
    (h : entries.Increasing) : (insert name b entries).Increasing := by
  induction entries with
  | nil => simp [insert]
  | cons head rest ih =>
    obtain ⟨n, c⟩ := head
    obtain ⟨before, tail⟩ := List.pairwise_cons.1 h
    simp only [insert]
    split
    · rename_i lt
      refine List.pairwise_cons.2 ⟨fun e he => ?_, h⟩
      rcases List.mem_cons.1 he with rfl | he
      · exact lt
      · exact String.lt_trans lt (before e he)
    · rename_i nlt
      split
      · rename_i eq
        subst eq
        exact List.pairwise_cons.2 ⟨before, tail⟩
      · rename_i ne
        refine List.pairwise_cons.2 ⟨fun e he => ?_, ih tail⟩
        rcases name_of_mem_insert he with rfl | he
        · rcases Std.lt_trichotomy name n with lt | eq | gt
          · exact absurd lt nlt
          · exact absurd eq ne
          · exact gt
        · exact before e he

theorem sort_increasing (entries : Entries β) : entries.sort.Increasing := by
  have fold : ∀ (es sorted : Entries β), sorted.Increasing →
      Increasing (es.foldl (fun sorted e => sorted.insert e.1 e.2) sorted) := by
    intro es
    induction es with
    | nil => exact fun _ h => h
    | cons e es ih => exact fun sorted h => ih _ (insert_increasing h)
  exact fold entries [] .nil

/-- An entry whose name is beyond all names goes to the end. -/
theorem insert_append {name : String} {b : β} {entries : Entries β}
    (h : ∀ e ∈ entries, e.1 < name) : insert name b entries = entries ++ [(name, b)] := by
  induction entries with
  | nil => rfl
  | cons head rest ih =>
    have lt := h head (.head _)
    have nlt : ¬ name < head.1 := fun gt => String.lt_asymm lt gt
    have ne : ¬ name = head.1 := fun eq => String.lt_irrefl _ (eq ▸ lt)
    simp only [insert, nlt, ne, if_false, List.cons_append]
    rw [ih fun e he => h e (.tail _ he)]

theorem sort_eq_self {entries : Entries β} (h : entries.Increasing) : entries.sort = entries := by
  have fold : ∀ (es sorted : Entries β), (sorted ++ es).Increasing →
      es.foldl (fun sorted e => sorted.insert e.1 e.2) sorted = sorted ++ es := by
    intro es
    induction es with
    | nil => simp
    | cons e es ih =>
      intro sorted inc
      have last : ∀ x ∈ sorted, x.1 < e.1 := fun x hx =>
        (List.pairwise_append.1 inc).2.2 x hx e (.head _)
      rw [List.foldl_cons, insert_append last, ih]
      · simp
      · simpa using inc
  exact fold entries [] h

end Entries

/-- A map from texts to texts, in its one written form. -/
structure TextMap where
  entries : Entries String
  increasing : entries.Increasing
  deriving DecidableEq, Repr

namespace TextMap

def empty : TextMap := ⟨[], .nil⟩

/-- The map with these entries, the last of each name. -/
def ofEntries (entries : Entries String) : TextMap := ⟨entries.sort, entries.sort_increasing⟩

end TextMap
end PlaneBridge
