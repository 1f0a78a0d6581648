import PlaneBridge.Catalog.Keyed

/-!
# What stays in a collection

Of the elements that are put under one key the last one stays.  `survivors` are those elements, read
off the list without a collection, and `filter_survivors` says what it means to be one of them.

A collection of the elements holds its survivors, each under its own key, and nothing else, by
`values_arranged_ofList`.  The collection keeps them in the order in which the keys have come first
and the list in the order of the survivors themselves, so the two agree only up to order.
-/

namespace PlaneBridge.Catalog

variable {κ α : Type} [DecidableEq κ]

/-- The elements behind which no other has the same key. -/
def survivors (key : α → κ) : List α → List α
  | [] => []
  | a :: xs => if key a ∈ xs.map key then survivors key xs else a :: survivors key xs

theorem survivors_of_mem {key : α → κ} {a : α} {xs : List α} (h : key a ∈ xs.map key) :
    survivors key (a :: xs) = survivors key xs := by
  rw [survivors, if_pos h]

theorem survivors_of_notMem {key : α → κ} {a : α} {xs : List α} (h : key a ∉ xs.map key) :
    survivors key (a :: xs) = a :: survivors key xs := by
  rw [survivors, if_neg h]

theorem survivors_sublist (key : α → κ) (xs : List α) : (survivors key xs).Sublist xs := by
  induction xs with
  | nil => exact List.Sublist.refl []
  | cons a xs ih =>
    by_cases h : key a ∈ xs.map key
    · rw [survivors_of_mem h]
      exact ih.cons a
    · rw [survivors_of_notMem h]
      exact ih.cons_cons a

theorem survivors_nodup (key : α → κ) (xs : List α) : ((survivors key xs).map key).Nodup := by
  induction xs with
  | nil => exact List.nodup_nil
  | cons a xs ih =>
    by_cases h : key a ∈ xs.map key
    · rw [survivors_of_mem h]
      exact ih
    · have hfresh : key a ∉ (survivors key xs).map key := fun hmem =>
        h (((survivors_sublist key xs).map key).subset hmem)
      rw [survivors_of_notMem h, List.map_cons]
      exact List.nodup_cons.mpr ⟨hfresh, ih⟩

theorem filter_eq_nil_of_notMem {key : α → κ} {xs : List α} {k : κ} (h : k ∉ xs.map key) :
    xs.filter (key · = k) = [] := by
  rw [List.filter_eq_nil_iff]
  intro a ha heq
  exact h (List.mem_map.mpr ⟨a, ha, of_decide_eq_true heq⟩)

/-- Under each key there is one survivor, the last element that has the key, or none if no element
has it. -/
theorem filter_survivors (key : α → κ) (xs : List α) (k : κ) :
    (survivors key xs).filter (key · = k) = (xs.filter (key · = k)).getLast?.toList := by
  induction xs with
  | nil => rfl
  | cons a xs ih =>
    by_cases hk : key a = k
    · rw [List.filter_cons_of_pos (by simp [hk])]
      -- The element is the last one with its key only if the key does not come again.
      by_cases h : key a ∈ xs.map key
      · have hlater : xs.filter (key · = k) ≠ [] := by
          obtain ⟨b, hb, hkey⟩ := List.mem_map.mp h
          have hmem : b ∈ xs.filter (key · = k) :=
            List.mem_filter.mpr ⟨hb, decide_eq_true (hkey.trans hk)⟩
          exact List.ne_nil_of_mem hmem
        rw [survivors_of_mem h, ih, List.getLast?_cons_of_ne_nil hlater]
      · have hnone : xs.filter (key · = k) = [] := filter_eq_nil_of_notMem (hk ▸ h)
        rw [survivors_of_notMem h, List.filter_cons_of_pos (by simp [hk]), ih, hnone]
        rfl
    · rw [List.filter_cons_of_neg (by simp [hk])]
      by_cases h : key a ∈ xs.map key
      · rw [survivors_of_mem h, ih]
      · rw [survivors_of_notMem h, List.filter_cons_of_neg (by simp [hk]), ih]

theorem mem_survivors {key : α → κ} {xs : List α} {a : α} :
    a ∈ survivors key xs ↔ (xs.filter (key · = key a)).getLast? = some a := by
  have hfilter : a ∈ survivors key xs ↔ a ∈ (survivors key xs).filter (key · = key a) := by
    simp only [List.mem_filter, decide_true, and_true]
  rw [hfilter, filter_survivors, Option.mem_toList]

namespace Keyed

/-! ## Looking up -/

theorem mem_iff_lookup {entries : List (κ × α)} (h : (entries.map (·.1)).Nodup) {k : κ} {a : α} :
    (k, a) ∈ entries ↔ entries.lookup k = some a := by
  induction entries with
  | nil => simp
  | cons head rest ih =>
    obtain ⟨l, b⟩ := head
    obtain ⟨hfresh, hrest⟩ := List.nodup_cons.mp h
    rw [lookup_cons, List.mem_cons, ih hrest, Prod.mk.injEq]
    by_cases hk : k = l
    · subst hk
      have hnone : rest.lookup k ≠ some a := fun hsome =>
        hfresh (List.mem_map.mpr ⟨(k, a), (ih hrest).mpr hsome, rfl⟩)
      rw [if_pos rfl, Option.some_inj]
      constructor
      · rintro (⟨_, rfl⟩ | hsome)
        · rfl
        · exact absurd hsome hnone
      · rintro rfl
        exact Or.inl ⟨rfl, rfl⟩
    · rw [if_neg hk]
      exact or_iff_right fun heq => hk heq.1

theorem mem_entries {c : Keyed κ α} {k : κ} {a : α} : (k, a) ∈ c.entries ↔ c.get? k = some a :=
  mem_iff_lookup c.distinct

theorem get?_foldl_put (key : α → κ) (xs : List α) (c : Keyed κ α) (k : κ) :
    ((xs.map fun a => (key a, a)).foldl (fun c (key, a) => c.put key a) c).get? k =
      (xs.filter (key · = k)).getLast?.or (c.get? k) := by
  -- What is put later is found first, so the collection so far only is what there is to fall back
  -- on.
  induction xs generalizing c with
  | nil => rfl
  | cons a xs ih =>
    rw [List.map_cons, List.foldl_cons, ih, get?_put]
    by_cases hk : key a = k
    · rw [List.filter_cons_of_pos (by simp [hk]), List.getLast?_cons, if_pos hk.symm]
      cases (xs.filter (key · = k)).getLast? <;> rfl
    · rw [List.filter_cons_of_neg (by simp [hk]), if_neg (Ne.symm hk)]

/-- Under a key there is the last of the elements that have it. -/
theorem get?_ofList (key : α → κ) (xs : List α) (k : κ) :
    (ofList key xs).get? k = (xs.filter (key · = k)).getLast? := by
  rw [ofList, ofPairs, get?_foldl_put]
  exact Option.or_none

/-! ## Values -/

theorem key_of_mem_entries {key : α → κ} {xs : List α} {k : κ} {a : α}
    (h : (k, a) ∈ (ofList key xs).entries) : key a = k := by
  have hlast : (xs.filter (key · = k)).getLast? = some a :=
    (get?_ofList key xs k).symm.trans (mem_entries.mp h)
  exact of_decide_eq_true (List.mem_filter.mp (List.mem_of_getLast? hlast)).2

theorem mem_values_ofList {key : α → κ} {xs : List α} {a : α} :
    a ∈ (ofList key xs).values ↔ a ∈ survivors key xs := by
  rw [values, List.mem_map, mem_survivors]
  constructor
  · rintro ⟨⟨k, b⟩, hentry, rfl⟩
    rw [key_of_mem_entries hentry, ← get?_ofList]
    exact mem_entries.mp hentry
  · intro hlast
    exact ⟨(key a, a), mem_entries.mpr ((get?_ofList key xs (key a)).trans hlast), rfl⟩

/-- An element of the collection is under its own key, and keys are distinct. -/
theorem values_ofList_nodup (key : α → κ) (xs : List α) : (ofList key xs).values.Nodup := by
  have hkeys : (ofList key xs).values.map key = (ofList key xs).entries.map (·.1) := by
    rw [values, List.map_map]
    refine List.map_congr_left fun entry hentry => ?_
    exact key_of_mem_entries (k := entry.1) (a := entry.2) hentry
  have hnodup : ((ofList key xs).values.map key).Nodup := hkeys ▸ (ofList key xs).distinct
  exact List.Pairwise.of_map key (fun a b hne heq => hne (congrArg key heq)) hnodup

theorem values_ofList (key : α → κ) (xs : List α) :
    (ofList key xs).values.Perm (survivors key xs) := by
  have hnodup : (survivors key xs).Nodup :=
    List.Pairwise.of_map key (fun a b hne heq => hne (congrArg key heq)) (survivors_nodup key xs)
  exact (List.perm_ext_iff_of_nodup (values_ofList_nodup key xs) hnodup).mpr fun _ =>
    mem_values_ofList

/-- A collection of elements holds the survivors and nothing else, however it is arranged. -/
theorem values_arranged_ofList (arrangement : Arrangement) (key : α → κ) (xs : List α) :
    ((ofList key xs).arranged arrangement).values.Perm (survivors key xs) := by
  have harranged : ((ofList key xs).arranged arrangement).values.Perm (ofList key xs).values :=
    (arrangement.perm (ofList key xs).entries).map _
  exact harranged.trans (values_ofList key xs)

end Keyed
end PlaneBridge.Catalog
