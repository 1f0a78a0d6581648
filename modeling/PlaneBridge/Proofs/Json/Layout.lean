import PlaneBridge.Proofs.Json.Path

/-!
# Values put together from parts of others

A layout says how a value is put together from what paths lead to in another one.  If no part lies
within another, then whatever changes in a part of the source changes in the place of that part, and
nowhere else, by `Layout.fill_modify`.
-/

namespace PlaneBridge.Json

inductive Layout where
  | part (source : Path)
  | obj (members : List (String × Layout))

mutual

/-- The value put together from parts of another. -/
def Layout.fill (v : Value) : Layout → Value
  | .part source => (v.at? source).getD .null
  | .obj members => .obj (fillMembers v members)

def fillMembers (v : Value) : List (String × Layout) → Entries Value
  | [] => []
  | (name, l) :: rest => (name, l.fill v) :: fillMembers v rest

end

mutual

/-- The layout with its parts taken from below a path. -/
def Layout.under (place : Path) : Layout → Layout
  | .part source => .part (place ++ source)
  | .obj members => .obj (underMembers place members)

def underMembers (place : Path) : List (String × Layout) → List (String × Layout)
  | [] => []
  | (name, l) :: rest => (name, l.under place) :: underMembers place rest

end

mutual

/-- Where the parts come from and where below a path they are put. -/
def Layout.moves (place : Path) : Layout → List (Path × Path)
  | .part source => [(source, place)]
  | .obj members => movesMembers place members

def movesMembers (place : Path) : List (String × Layout) → List (Path × Path)
  | [] => []
  | (name, l) :: rest => l.moves (place ++ [.member name]) ++ movesMembers place rest

end

mutual

/-- Whether no object has two members of one name. -/
def Layout.regular : Layout → Bool
  | .part _ => true
  | .obj members => decide (members.map (·.1)).Nodup && regularMembers members

def regularMembers : List (String × Layout) → Bool
  | [] => true
  | (_, l) :: rest => l.regular && regularMembers rest

end

theorem names_fillMembers (v : Value) (members : List (String × Layout)) :
    (fillMembers v members).map (·.1) = members.map (·.1) := by
  induction members with
  | nil => rfl
  | cons m rest ih => rw [fillMembers, List.map_cons, ih, List.map_cons]

theorem Value.getD_at?_append (v : Value) (p q : Path) :
    (v.at? (p ++ q)).getD .null = (((v.at? p).getD .null).at? q).getD .null := by
  rw [Value.at?_append]
  cases v.at? p with
  | some w => rfl
  | none =>
    -- nothing lies below a null but itself
    cases q with
    | nil => rfl
    | cons s q => cases s <;> rfl

mutual

theorem Layout.fill_under (v : Value) (place : Path) : (l : Layout) →
    (l.under place).fill v = l.fill ((v.at? place).getD .null)
  | .part source => v.getD_at?_append place source
  | .obj members => congrArg Value.obj (fillMembers_under v place members)

theorem fillMembers_under (v : Value) (place : Path) : (members : List (String × Layout)) →
    fillMembers v (underMembers place members) = fillMembers ((v.at? place).getD .null) members
  | [] => rfl
  | (name, l) :: rest => by
    rw [underMembers, fillMembers, fillMembers, l.fill_under v place,
      fillMembers_under v place rest]

end

mutual

/-- Values that agree in all parts are put together to the same value. -/
theorem Layout.fill_congr {v w : Value} {place : Path} : (l : Layout) →
    (∀ m ∈ l.moves place, v.at? m.1 = w.at? m.1) → l.fill v = l.fill w
  | .part source, h => by
    rw [Layout.fill, Layout.fill, h (source, place) List.mem_cons_self]
  | .obj members, h => congrArg Value.obj (fillMembers_congr members h)

theorem fillMembers_congr {v w : Value} {place : Path} : (members : List (String × Layout)) →
    (∀ m ∈ movesMembers place members, v.at? m.1 = w.at? m.1) →
    fillMembers v members = fillMembers w members
  | [], _ => rfl
  | (name, l) :: rest, h => by
    rw [movesMembers, List.forall_mem_append] at h
    rw [fillMembers, fillMembers, l.fill_congr h.1, fillMembers_congr rest h.2]

end

section

variable {v : Value} {source target : Path}

mutual

theorem Layout.at?_fill {place : Path} : (l : Layout) → l.regular = true →
    (source, target) ∈ l.moves place →
    ∃ r, target = place ++ r ∧ (l.fill v).at? r = some ((v.at? source).getD .null)
  | .part _, _, h => by
    cases List.mem_singleton.mp h
    exact ⟨[], (List.append_nil _).symm, rfl⟩
  | .obj members, hregular, h => by
    rw [Layout.regular, Bool.and_eq_true, decide_eq_true_eq] at hregular
    obtain ⟨name, w, r, htarget, hlookup, hat⟩ :=
      lookup_fillMembers members hregular.1 hregular.2 h
    exact ⟨.member name :: r, htarget, (congrArg (Option.bind · _) hlookup).trans hat⟩

theorem lookup_fillMembers {place : Path} : (members : List (String × Layout)) →
    (members.map (·.1)).Nodup → regularMembers members = true →
    (source, target) ∈ movesMembers place members →
    ∃ name w r, target = place ++ .member name :: r ∧
      (fillMembers v members).lookup name = some w ∧
      w.at? r = some ((v.at? source).getD .null)
  | [], _, _, h => by cases h
  | (name, l) :: rest, hnodup, hregular, h => by
    obtain ⟨hname, hnodup⟩ := List.nodup_cons.mp hnodup
    rw [regularMembers, Bool.and_eq_true] at hregular
    rcases List.mem_append.mp h with h | h
    · obtain ⟨r, htarget, hat⟩ := l.at?_fill hregular.1 h
      refine ⟨name, l.fill v, r, by rw [htarget, List.append_assoc]; rfl, ?_, hat⟩
      rw [fillMembers, Catalog.Keyed.lookup_cons, if_pos rfl]
    · obtain ⟨n, w, r, htarget, hlookup, hat⟩ := lookup_fillMembers rest hnodup hregular.2 h
      refine ⟨n, w, r, htarget, ?_, hat⟩
      have hne : n ≠ name := by
        intro heq
        have hmem : n ∈ (fillMembers v rest).map (·.1) :=
          List.mem_map_of_mem ((Catalog.Keyed.mem_iff_lookup (by
            rw [names_fillMembers]
            exact hnodup)).mpr hlookup)
        rw [names_fillMembers] at hmem
        exact hname (heq ▸ hmem)
      rw [fillMembers, Catalog.Keyed.lookup_cons, if_neg hne, hlookup]

end

mutual

theorem Layout.fill_modify {place : Path} (f : Value → Value) (q : Path)
    (hv : (v.at? source).isSome) : (l : Layout) → l.regular = true →
    (l.moves place).Pairwise (fun m n => m.1.Apart n.1) → (source, target) ∈ l.moves place →
    ∃ r, target = place ++ r ∧ l.fill (v.modify f (source ++ q)) = (l.fill v).modify f (r ++ q)
  | .part p, _, _, h => by
    cases List.mem_singleton.mp h
    obtain ⟨w, hw⟩ := Option.isSome_iff_exists.mp hv
    refine ⟨[], (List.append_nil _).symm, ?_⟩
    rw [Layout.fill, Layout.fill, Value.at?_modify_append, hw]
    rfl
  | .obj members, hregular, hapart, h => by
    rw [Layout.regular, Bool.and_eq_true, decide_eq_true_eq] at hregular
    obtain ⟨name, r, htarget, _, hfill⟩ :=
      fillMembers_modify f q hv members hregular.1 hregular.2 hapart h
    exact ⟨.member name :: r, htarget, congrArg Value.obj hfill⟩

theorem fillMembers_modify {place : Path} (f : Value → Value) (q : Path)
    (hv : (v.at? source).isSome) : (members : List (String × Layout)) →
    (members.map (·.1)).Nodup → regularMembers members = true →
    (movesMembers place members).Pairwise (fun m n => m.1.Apart n.1) →
    (source, target) ∈ movesMembers place members →
    ∃ name r, target = place ++ .member name :: r ∧ name ∈ members.map (·.1) ∧
      fillMembers (v.modify f (source ++ q)) members =
        Entries.modify name (·.modify f (r ++ q)) (fillMembers v members)
  | [], _, _, _, h => by cases h
  | (name, l) :: rest, hnodup, hregular, hapart, h => by
    obtain ⟨hname, hnodup⟩ := List.nodup_cons.mp hnodup
    rw [regularMembers, Bool.and_eq_true] at hregular
    obtain ⟨hhead, hrest, hacross⟩ := List.pairwise_append.mp hapart
    rw [fillMembers, fillMembers]
    rcases List.mem_append.mp h with h | h
    · -- the others hold no part of what changes
      obtain ⟨r, htarget, hfill⟩ := l.fill_modify f q hv hregular.1 hhead h
      refine ⟨name, r, by rw [htarget, List.append_assoc]; rfl, List.mem_cons_self, ?_⟩
      have hsame : fillMembers (v.modify f (source ++ q)) rest = fillMembers v rest :=
        fillMembers_congr rest fun m hm => v.at?_modify_of_apart f ((hacross _ h m hm).append q)
      have hothers : name ∉ (fillMembers v rest).map (·.1) := by
        rw [names_fillMembers]
        exact hname
      rw [hfill, hsame, Entries.modify_cons, if_pos rfl, Entries.modify_of_notMem hothers]
    · obtain ⟨n, r, htarget, hn, hfill⟩ := fillMembers_modify f q hv rest hnodup hregular.2 hrest h
      refine ⟨n, r, htarget, List.mem_cons_of_mem _ hn, ?_⟩
      have hsame : l.fill (v.modify f (source ++ q)) = l.fill v :=
        l.fill_congr fun m hm => v.at?_modify_of_apart f ((hacross m hm _ h).symm.append q)
      have hne : name ≠ n := fun heq => hname (heq ▸ hn)
      rw [hfill, hsame, Entries.modify_cons, if_neg hne]

end

end

end PlaneBridge.Json
