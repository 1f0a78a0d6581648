import PlaneBridge.Json.Value
import PlaneBridge.Proofs.Entries

/-!
# Paths into values

A path leads through members of objects and elements of arrays.  `Value.modify` changes what a path
leads to; by `at?_modify` and `at?_modify_of_apart` it changes that and nothing else.
-/

namespace PlaneBridge

/-- The entries with what is under a name changed. -/
def Entries.modify {β : Type} (name : String) (f : β → β) (es : Entries β) : Entries β :=
  es.map fun e => if e.1 = name then (e.1, f e.2) else e

theorem Entries.modify_cons {β : Type} (name : String) (f : β → β) (e : String × β)
    (es : Entries β) :
    modify name f (e :: es) = (if e.1 = name then (e.1, f e.2) else e) :: es.modify name f := rfl

theorem Entries.names_modify {β : Type} (name : String) (f : β → β) (es : Entries β) :
    (es.modify name f).map (·.1) = es.map (·.1) := by
  rw [modify, List.map_map]
  refine List.map_congr_left fun e _ => ?_
  show (if e.1 = name then (e.1, f e.2) else e).1 = e.1
  split <;> rfl

theorem Entries.lookup_modify {β : Type} (name : String) (f : β → β) (es : Entries β) (n : String) :
    (es.modify name f).lookup n = if n = name then (es.lookup n).map f else es.lookup n := by
  induction es with
  | nil => split <;> rfl
  | cons e es ih =>
    obtain ⟨m, b⟩ := e
    rw [modify_cons]
    by_cases hm : m = name
    · rw [if_pos hm, Catalog.Keyed.lookup_cons, Catalog.Keyed.lookup_cons, ih]
      by_cases hn : n = m
      · rw [if_pos hn, if_pos (hn.trans hm), if_pos hn, Option.map_some]
      · rw [if_neg hn, if_neg hn]
    · rw [if_neg hm, Catalog.Keyed.lookup_cons, Catalog.Keyed.lookup_cons, ih]
      by_cases hn : n = m
      · rw [if_pos hn, if_pos hn, if_neg fun h => hm (hn.symm.trans h)]
      · rw [if_neg hn, if_neg hn]

theorem Entries.last?_modify {β : Type} (name : String) (f : β → β) (es : Entries β) (n : String) :
    (es.modify name f).last? n = if n = name then (es.last? n).map f else es.last? n := by
  induction es with
  | nil => split <;> rfl
  | cons e es ih =>
    obtain ⟨m, b⟩ := e
    rw [modify_cons, last?, last?, ih]
    by_cases hn : n = name
    · rw [if_pos hn, if_pos hn]
      by_cases hm : m = n
      · rw [if_pos (hm.trans hn), if_pos hm, if_pos hm]
        cases last? n es <;> rfl
      · have hname : m ≠ name := fun h => hm (h.trans hn.symm)
        rw [if_neg hname, if_neg hm, Option.or_none, Option.or_none]
    · rw [if_neg hn, if_neg hn]
      by_cases hm : m = name
      · have hmn : m ≠ n := fun h => hn (h.symm.trans hm)
        rw [if_pos hm, if_neg hmn, if_neg hmn]
      · rw [if_neg hm]

theorem Entries.modify_of_notMem {β : Type} {name : String} {es : Entries β}
    (h : name ∉ es.map (·.1)) (f : β → β) : es.modify name f = es := by
  rw [modify]
  refine (List.map_congr_left fun e he => ?_).trans es.map_id
  have hne : e.1 ≠ name := fun heq => h (heq ▸ List.mem_map_of_mem he)
  exact if_neg hne

theorem Entries.sort_modify {β : Type} (name : String) (f : β → β) (es : Entries β) :
    (es.modify name f).sort = es.sort.modify name f := by
  have hincreasing : (es.sort.modify name f).Increasing := by
    have h := es.sort_increasing
    rw [Increasing, ← List.pairwise_map] at h ⊢
    rw [names_modify]
    exact h
  refine (sort_increasing _).ext hincreasing fun n => ?_
  rw [lookup_sort, last?_modify, lookup_modify, lookup_sort]

namespace Json

/-- One step into a value. -/
inductive Step where
  | member (name : String)
  | item (index : Nat)
  deriving DecidableEq, Repr

abbrev Path := List Step

/-- Neither path leads through the other. -/
def Path.Apart (p q : Path) : Prop := ¬ p <+: q ∧ ¬ q <+: p

instance (p q : Path) : Decidable (p.Apart q) := inferInstanceAs (Decidable (_ ∧ _))

theorem Path.Apart.symm {p q : Path} (h : p.Apart q) : q.Apart p := ⟨h.2, h.1⟩

theorem Path.Apart.append {p q : Path} (h : p.Apart q) (r : Path) : (p ++ r).Apart q := by
  refine ⟨fun hpre => h.1 ((List.prefix_append p r).trans hpre), fun hpre => ?_⟩
  rcases List.prefix_or_prefix_of_prefix hpre (List.prefix_append p r) with hq | hp
  · exact h.2 hq
  · exact h.1 hp

namespace Value

def step? : Value → Step → Option Value
  | .obj members, .member name => members.lookup name
  | .arr items, .item i => items[i]?
  | _, _ => none

/-- What a path leads to. -/
def at? : Value → Path → Option Value
  | v, [] => some v
  | v, s :: p => (v.step? s).bind (·.at? p)

/-- The value with what a step leads to changed. -/
def modifyStep (f : Value → Value) : Value → Step → Value
  | .obj members, .member name => .obj (Entries.modify name f members)
  | .arr items, .item i => .arr (items.modify i f)
  | v, _ => v

/-- The value with what a path leads to changed. -/
def modify (f : Value → Value) : Value → Path → Value
  | v, [] => f v
  | v, s :: p => v.modifyStep (·.modify f p) s

/-- An object without its member of a name. -/
def drop (name : String) : Value → Value
  | .obj members => .obj (members.filter (·.1 ≠ name))
  | v => v

theorem at?_append (v : Value) (p q : Path) : v.at? (p ++ q) = (v.at? p).bind (·.at? q) := by
  induction p generalizing v with
  | nil => rfl
  | cons s p ih =>
    rw [List.cons_append, at?, at?, Option.bind_assoc]
    exact congrArg _ (funext fun w => ih w)

theorem step?_modifyStep (f : Value → Value) (v : Value) (s t : Step) :
    (v.modifyStep f s).step? t = if t = s then (v.step? t).map f else v.step? t := by
  cases v with
  | obj members =>
    cases s with
    | member name =>
      cases t with
      | member n =>
        simp only [modifyStep, step?, Entries.lookup_modify, Step.member.injEq]
      | item i => simp [modifyStep, step?]
    | item i => cases t <;> simp [modifyStep, step?]
  | arr items =>
    cases s with
    | item i =>
      cases t with
      | item j =>
        simp only [modifyStep, step?, List.getElem?_modify, Step.item.injEq]
        by_cases h : i = j
        · simp [h]
        · simp [h, Ne.symm h]
      | member n => simp [modifyStep, step?]
    | member n => cases t <;> simp [modifyStep, step?]
  | _ => cases t <;> simp [modifyStep, step?]

theorem at?_modify (f : Value → Value) (v : Value) (p q : Path) :
    (v.modify f p).at? (p ++ q) = (v.at? p).bind fun w => (f w).at? q := by
  induction p generalizing v with
  | nil => rfl
  | cons s p ih =>
    rw [modify, List.cons_append, at?, step?_modifyStep, if_pos rfl, at?]
    cases v.step? s with
    | none => rfl
    | some w => exact ih w

theorem modify_append (f : Value → Value) (v : Value) (p q : Path) :
    v.modify f (p ++ q) = v.modify (·.modify f q) p := by
  induction p generalizing v with
  | nil => rfl
  | cons s p ih => exact congrArg (v.modifyStep · s) (funext ih)

theorem at?_modify_append (f : Value → Value) (v : Value) (p q : Path) :
    (v.modify f (p ++ q)).at? p = (v.at? p).map (·.modify f q) := by
  have h := v.at?_modify (·.modify f q) p []
  rw [List.append_nil, ← modify_append] at h
  rw [h, Option.map_eq_bind]
  rfl

theorem at?_modify_of_apart (f : Value → Value) (v : Value) {p q : Path} (h : p.Apart q) :
    (v.modify f p).at? q = v.at? q := by
  induction p generalizing v q with
  | nil => exact absurd List.nil_prefix h.1
  | cons s p ih =>
    cases q with
    | nil => exact absurd List.nil_prefix h.2
    | cons t q =>
      rw [modify, at?, step?_modifyStep, at?]
      by_cases hst : t = s
      · subst hst
        rw [if_pos rfl]
        cases v.step? t with
        | none => rfl
        | some w =>
          refine ih w ⟨fun hpre => h.1 ?_, fun hpre => h.2 ?_⟩
          · exact List.cons_prefix_cons.mpr ⟨rfl, hpre⟩
          · exact List.cons_prefix_cons.mpr ⟨rfl, hpre⟩
      · rw [if_neg hst]

end Value
end Json
end PlaneBridge
