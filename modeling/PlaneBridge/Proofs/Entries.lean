import PlaneBridge.Entries
import PlaneBridge.Proofs.Catalog.Keyed
import Mathlib.Data.List.Forall2
import Mathlib.Data.List.Nodup

/-!
# The last entry of each name

`last?` looks up the last entry of a name.  Sorting keeps just these, by `lookup_sort`, and entries
in increasing order are determined by what they hold under each name, by `Increasing.ext`.  Hence a
map written in any order of its entries is the same map, `TextMap.ofEntries_of_perm`.
-/

namespace PlaneBridge.Entries

open Catalog.Keyed (lookup_cons)

variable {β : Type}

/-- What the last entry of a name holds. -/
def last? (name : String) : Entries β → Option β
  | [] => none
  | (n, b) :: rest => (last? name rest).or (if n = name then some b else none)

theorem last?_append (name : String) (es fs : Entries β) :
    (es ++ fs).last? name = (fs.last? name).or (es.last? name) := by
  induction es with
  | nil => rw [List.nil_append, last?, Option.or_none]
  | cons e es ih => rw [List.cons_append, last?, last?, ih, Option.or_assoc]

theorem last?_singleton (name : String) (e : String × β) :
    last? name [e] = if e.1 = name then some e.2 else none := by
  rw [last?, last?, Option.none_or]

theorem last?_eq_none {name : String} {es : Entries β} :
    es.last? name = none ↔ name ∉ es.map (·.1) := by
  induction es with
  | nil => simp [last?]
  | cons e es ih =>
    by_cases h : e.1 = name
    · simp [last?, h]
    · simp [last?, h, ih, Ne.symm h]

theorem mem_of_last? {name : String} {b : β} {es : Entries β} (h : es.last? name = some b) :
    (name, b) ∈ es := by
  induction es with
  | nil => cases h
  | cons e es ih =>
    obtain ⟨n, c⟩ := e
    rw [last?, Option.or_eq_some_iff] at h
    rcases h with h | ⟨_, h⟩
    · exact List.mem_cons_of_mem _ (ih h)
    · by_cases hn : n = name
      · rw [if_pos hn] at h
        rw [← hn, Option.some.inj h]
        exact List.mem_cons_self
      · rw [if_neg hn] at h
        cases h

theorem lookup_insert (name n : String) (b : β) (es : Entries β) :
    (insert n b es).lookup name = if name = n then some b else es.lookup name := by
  induction es with
  | nil => rw [insert, lookup_cons]
  | cons e es ih =>
    obtain ⟨m, c⟩ := e
    rw [insert]
    split
    · rw [lookup_cons]
    split
    · rename_i h
      subst h
      by_cases hn : name = n <;> simp [lookup_cons, hn]
    · rename_i hne
      rw [lookup_cons, ih, lookup_cons]
      by_cases hm : name = m
      · have hn : name ≠ n := fun heq => hne (heq.symm.trans hm)
        rw [if_pos hm, if_neg hn, if_pos hm]
      · rw [if_neg hm, if_neg hm]

theorem lookup_sort (name : String) (es : Entries β) : es.sort.lookup name = es.last? name := by
  have fold : ∀ (es sorted : Entries β),
      (es.foldl (fun sorted e => sorted.insert e.1 e.2) sorted).lookup name =
        (es.last? name).or (sorted.lookup name) := by
    intro es
    induction es with
    | nil => exact fun sorted => rfl
    | cons e es ih =>
      intro sorted
      rw [List.foldl_cons, ih, lookup_insert, last?, Option.or_assoc]
      by_cases h : e.1 = name
      · simp [h]
      · simp [h, Ne.symm h]
  rw [sort, fold, List.lookup_nil, Option.or_none]

theorem lookup_eq_none_of_lt {name : String} {es : Entries β} (h : ∀ e ∈ es, name < e.1) :
    es.lookup name = none := by
  induction es with
  | nil => rfl
  | cons e es ih =>
    have hne : name ≠ e.1 := fun heq => String.lt_irrefl _ (heq ▸ h e List.mem_cons_self)
    rw [lookup_cons, if_neg hne]
    exact ih fun f hf => h f (List.mem_cons_of_mem _ hf)

/-- The first name of one list cannot be below all names of the other. -/
theorem not_lt_of_lookup {e f : String × β} {es fs : Entries β}
    (hfs : Increasing (f :: fs)) (h : (f :: fs).lookup e.1 = (e :: es).lookup e.1) :
    ¬ e.1 < f.1 := by
  intro hlt
  rw [lookup_cons (b := e.2), if_pos rfl, lookup_eq_none_of_lt] at h
  · cases h
  · intro g hg
    rcases List.mem_cons.mp hg with rfl | hg
    · exact hlt
    · exact String.lt_trans hlt ((List.pairwise_cons.mp hfs).1 g hg)

theorem Increasing.ext {es fs : Entries β} (hes : es.Increasing) (hfs : fs.Increasing)
    (h : ∀ name, es.lookup name = fs.lookup name) : es = fs := by
  induction es generalizing fs with
  | nil =>
    cases fs with
    | nil => rfl
    | cons f fs =>
      have hf := h f.1
      rw [lookup_cons, if_pos rfl] at hf
      cases hf
  | cons e es ih =>
    cases fs with
    | nil =>
      have he := h e.1
      rw [lookup_cons, if_pos rfl] at he
      cases he
    | cons f fs =>
      have hname : e.1 = f.1 := by
        rcases Std.lt_trichotomy e.1 f.1 with hlt | heq | hgt
        · exact absurd hlt (not_lt_of_lookup hfs (h e.1).symm)
        · exact heq
        · exact absurd hgt (not_lt_of_lookup hes (h f.1))
      obtain ⟨hlow, htail⟩ := List.pairwise_cons.mp hes
      obtain ⟨hlow', htail'⟩ := List.pairwise_cons.mp hfs
      have hvalue := h e.1
      rw [lookup_cons, lookup_cons, if_pos rfl, if_pos hname] at hvalue
      have htails : es = fs := by
        refine ih htail htail' fun name => ?_
        by_cases hn : name = e.1
        · rw [hn, lookup_eq_none_of_lt hlow, hname, lookup_eq_none_of_lt hlow']
        · have hstep := h name
          rw [lookup_cons, lookup_cons, if_neg hn, if_neg (hname ▸ hn)] at hstep
          exact hstep
      rw [htails, Prod.ext hname (Option.some.inj hvalue)]

/-- What is last does not hang on the order where no name comes twice. -/
theorem last?_of_perm {es fs : Entries β} (h : es.Perm fs) (hnodup : (fs.map (·.1)).Nodup)
    (name : String) : es.last? name = fs.last? name := by
  induction h with
  | nil => rfl
  | cons e _ ih =>
    rw [last?, last?, ih (List.nodup_cons.mp hnodup).2]
  | swap e f es =>
    have hne : f.1 ≠ e.1 := by
      intro heq
      exact (List.nodup_cons.mp hnodup).1 (List.mem_cons.mpr (.inl heq.symm))
    by_cases he : e.1 = name
    · have hf : f.1 ≠ name := fun heq => hne (heq.trans he.symm)
      simp [last?, he, hf]
    · simp [last?, he]
  | trans h₁ h₂ ih₁ ih₂ =>
    rw [ih₁ ((h₂.map (·.1)).nodup_iff.mpr hnodup), ih₂ hnodup]

theorem Increasing.nodup {es : Entries β} (h : es.Increasing) : (es.map (·.1)).Nodup := by
  rw [List.Nodup, List.pairwise_map]
  refine h.imp ?_
  intro e f hlt heq
  exact String.lt_irrefl _ (heq ▸ hlt)

theorem sort_of_perm {es fs : Entries β} (h : es.Perm fs) (hfs : fs.Increasing) : es.sort = fs := by
  refine Increasing.ext es.sort_increasing hfs fun name => ?_
  rw [lookup_sort, last?_of_perm h hfs.nodup, ← lookup_sort, sort_eq_self hfs]

theorem mem_sort {e : String × β} {es : Entries β} : e ∈ es.sort ↔ es.last? e.1 = some e.2 := by
  rw [← lookup_sort]
  exact Catalog.Keyed.mem_iff_lookup (sort_increasing es).nodup

theorem mem_of_mem_sort {e : String × β} {es : Entries β} (h : e ∈ es.sort) : e ∈ es :=
  mem_of_last? (mem_sort.mp h)

/-- Where no name comes twice, sorting only moves entries. -/
theorem sort_perm {es : Entries β} (h : (es.map (·.1)).Nodup) : es.sort.Perm es := by
  have hsorted : es.sort.Nodup := (sort_increasing es).nodup.of_map
  refine (List.perm_ext_iff_of_nodup hsorted h.of_map).mpr fun e => ?_
  rw [mem_sort]
  constructor
  · exact mem_of_last?
  · intro he
    cases hlast : es.last? e.1 with
    | none => exact absurd (List.mem_map_of_mem he) (last?_eq_none.mp hlast)
    | some b =>
      have hb := mem_of_last? hlast
      rw [List.inj_on_of_nodup_map h he hb rfl]

theorem mem_names_sort {name : String} {es : Entries β} :
    name ∈ es.sort.map (·.1) ↔ name ∈ es.map (·.1) := by
  have hlast : es.sort.last? name = es.last? name := by
    rw [← lookup_sort, sort_eq_self (sort_increasing es), lookup_sort]
  rw [← not_iff_not, ← last?_eq_none, ← last?_eq_none, hlast]

section HandInHand

variable {γ : Type} {R : β → γ → Prop} {es : Entries β} {fs : Entries γ}

theorem names_of_forall₂ (h : List.Forall₂ (fun e f => e.1 = f.1 ∧ R e.2 f.2) es fs) :
    es.map (·.1) = fs.map (·.1) := by
  induction h with
  | nil => rfl
  | cons hef _ ih => rw [List.map_cons, List.map_cons, hef.1, ih]

/-- Lists of entries that go hand in hand have last entries that do. -/
theorem last?_of_forall₂ (h : List.Forall₂ (fun e f => e.1 = f.1 ∧ R e.2 f.2) es fs)
    {name : String} {b : β} (hlast : es.last? name = some b) :
    ∃ c, fs.last? name = some c ∧ R b c := by
  induction h with
  | nil => cases hlast
  | @cons e f es fs hef hrest ih =>
    rw [last?, Option.or_eq_some_iff] at hlast
    rcases hlast with hlast | ⟨hnone, hhead⟩
    · obtain ⟨c, hc, hR⟩ := ih hlast
      exact ⟨c, by rw [last?, hc, Option.some_or], hR⟩
    · have hnone' : last? name fs = none := by
        rw [last?_eq_none] at hnone ⊢
        rw [← names_of_forall₂ hrest]
        exact hnone
      by_cases he : e.1 = name
      · rw [if_pos he] at hhead
        cases Option.some.inj hhead
        exact ⟨f.2, by rw [last?, hnone', Option.none_or, if_pos (hef.1 ▸ he)], hef.2⟩
      · rw [if_neg he] at hhead
        cases hhead

end HandInHand

end PlaneBridge.Entries

/-- A map whose entries come in any order. -/
theorem PlaneBridge.TextMap.ofEntries_of_perm {es : Entries String} {m : TextMap}
    (h : es.Perm m.entries) : ofEntries es = m := by
  obtain ⟨entries, hincreasing⟩ := m
  simp only [ofEntries, Entries.sort_of_perm h hincreasing]
