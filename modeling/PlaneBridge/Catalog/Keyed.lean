/-!
# Keyed collections

Entries under keys that are pairwise distinct.  Of entries that come under the same key the last one
stays.  The order of the entries carries no meaning: an `Arrangement` is any order in which somebody
who goes through a collection may meet them.

The main statement is `get?_put`, that looking up after putting finds what was put.
-/

namespace PlaneBridge.Catalog

variable {κ α : Type} [DecidableEq κ]

/-- An entry put under its key, in the place of one that is there already. -/
def putEntry (key : κ) (a : α) : List (κ × α) → List (κ × α)
  | [] => [(key, a)]
  | (k, b) :: rest => if k = key then (key, a) :: rest else (k, b) :: putEntry key a rest

theorem mem_keys_putEntry {key k : κ} {a : α} {entries : List (κ × α)} :
    k ∈ (putEntry key a entries).map (·.1) ↔ k = key ∨ k ∈ entries.map (·.1) := by
  induction entries with
  | nil => simp [putEntry]
  | cons head rest ih =>
    obtain ⟨l, b⟩ := head
    simp only [putEntry]
    split
    · rename_i eq
      simp [eq]
    · simp only [List.map_cons, List.mem_cons, ih]
      constructor
      · rintro (rfl | rfl | h) <;> simp_all
      · rintro (rfl | rfl | h) <;> simp_all

theorem putEntry_nodup {key : κ} {a : α} {entries : List (κ × α)}
    (h : (entries.map (·.1)).Nodup) : ((putEntry key a entries).map (·.1)).Nodup := by
  induction entries with
  | nil => simp [putEntry]
  | cons head rest ih =>
    obtain ⟨l, b⟩ := head
    simp only [List.map_cons, List.nodup_cons] at h
    simp only [putEntry]
    split
    · rename_i eq
      simpa [eq] using h
    · rename_i ne
      simp only [List.map_cons, List.nodup_cons, mem_keys_putEntry, not_or]
      exact ⟨⟨ne, h.1⟩, ih h.2⟩

/-- Entries under pairwise distinct keys. -/
structure Keyed (κ α : Type) where
  entries : List (κ × α)
  distinct : (entries.map (·.1)).Nodup

namespace Keyed

def empty : Keyed κ α := ⟨[], by simp⟩

def put (c : Keyed κ α) (key : κ) (a : α) : Keyed κ α :=
  ⟨putEntry key a c.entries, putEntry_nodup c.distinct⟩

def get? (c : Keyed κ α) (key : κ) : Option α := c.entries.lookup key

/-- The entries without their keys. -/
def values (c : Keyed κ α) : List α := c.entries.map (·.2)

/-- Each pair put in its turn. -/
def ofPairs (pairs : List (κ × α)) : Keyed κ α :=
  pairs.foldl (fun c (key, a) => c.put key a) empty

/-- Elements put under their keys in their turn. -/
def ofList (key : α → κ) (xs : List α) : Keyed κ α := ofPairs (xs.map fun a => (key a, a))

theorem lookup_cons {k l : κ} {b : α} {rest : List (κ × α)} :
    ((l, b) :: rest).lookup k = if k = l then some b else rest.lookup k := by
  by_cases h : k = l
  · simp [h]
  · have hne : (k == l) = false := by simpa using h
    rw [List.lookup_cons, hne, if_neg h]

theorem lookup_putEntry {key k : κ} {a : α} {entries : List (κ × α)} :
    (putEntry key a entries).lookup k = if k = key then some a else entries.lookup k := by
  induction entries with
  | nil => simp [putEntry, lookup_cons]
  | cons head rest ih =>
    obtain ⟨l, b⟩ := head
    simp only [putEntry]
    by_cases hl : l = key
    · subst hl
      by_cases h : k = l <;> simp [lookup_cons, h]
    · by_cases h : k = l
      · subst h
        simp [hl]
      · simp [hl, lookup_cons, h, ih]

/-- Looking up after putting finds what was put, and under any other key what was there before. -/
theorem get?_put (c : Keyed κ α) (key k : κ) (a : α) :
    (c.put key a).get? k = if k = key then some a else c.get? k := lookup_putEntry

end Keyed

/-- An order in which the entries of collections are met. -/
structure Arrangement where
  arrange : {ε : Type} → List ε → List ε
  perm : ∀ {ε : Type} (entries : List ε), (arrange entries).Perm entries

/-- The order in which the keys have come for the first time. -/
def Arrangement.asPut : Arrangement := ⟨fun entries => entries, fun _ => .refl _⟩

/-- The collection with its entries in another order. -/
def Keyed.arranged (c : Keyed κ α) (arrangement : Arrangement) : Keyed κ α :=
  ⟨arrangement.arrange c.entries,
    ((arrangement.perm c.entries).map (·.1)).nodup_iff.mpr c.distinct⟩

end PlaneBridge.Catalog
