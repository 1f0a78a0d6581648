import PlaneBridge.Proofs.Shape.Places

/-!
# What is not given

A record that a document gives in part has its own defaults for the rest, and these need not be
what the record as a whole is by default.  `KeepsDefaults` says that they are, but for some places.
Then what is not given is by default what it is where nothing is given, `at?_of_absent`.
-/

namespace PlaneBridge

open Json (Step Path Value)
open Yaml (Node)

mutual

/-- Every part of the value that stands for one not given is as its own default has it, but for
some places. -/
def Shape.KeepsDefaults (but : List Path) (here : Path) : {α : Type} → Shape α → α → Prop
  | _, .textMap, m => m = .empty
  | _, .record fields default toRow _ _ _, r =>
    fields.KeepsDefaults but here (toRow r) (toRow default)
  | _, _, _ => True

def Fields.KeepsDefaults (but : List Path) (here : Path) : {types : List Type} → Fields types →
    Row types → Row types → Prop
  | _, .nil, _, _ => True
  | _, .cons name shape rest, (a, row), (d, defaults) =>
    (here ++ [.member name] ∉ but → a = d) ∧ shape.KeepsDefaults but (here ++ [.member name]) a ∧
      rest.KeepsDefaults but here row defaults

end

/-- The path leads through members only. -/
def Json.Path.avoidsItems (p : Path) : Bool := p.all fun s => s matches .member _

section

variable {anchors : List (Nat × Node)} {but : List Path} {here : Path}

theorem Fields.KeepsDefaults.find? {types : List Type} {fields : Fields types}
    {row defaults : Row types} (h : fields.KeepsDefaults but here row defaults) {name : String}
    {sub : Σ β, Shape β} (hsub : fields.find? name = some sub) :
    ∃ a, (fields.toMembers row).lookup name = some (sub.2.toJson a) ∧
      sub.2.KeepsDefaults but (here ++ [.member name]) a ∧
      (here ++ [.member name] ∉ but →
        (fields.toMembers defaults).lookup name = some (sub.2.toJson a)) := by
  induction types with
  | nil => cases fields; cases hsub
  | cons α types ih =>
    obtain _ | ⟨field, shape, rest⟩ := fields
    obtain ⟨a, row⟩ := row
    obtain ⟨d, defaults⟩ := defaults
    obtain ⟨hsame, hbelow, hrest⟩ := h
    rw [Fields.find?] at hsub
    rw [toMembers, toMembers, Catalog.Keyed.lookup_cons, Catalog.Keyed.lookup_cons]
    by_cases hname : field = name
    · rw [if_pos hname] at hsub
      cases hsub
      subst hname
      refine ⟨a, if_pos rfl, hbelow, fun hbut => ?_⟩
      rw [if_pos rfl, hsame hbut]
    · rw [if_neg hname] at hsub
      rw [if_neg (Ne.symm hname), if_neg (Ne.symm hname)]
      exact ih hrest hsub

/-- What is not given is as in the value that stands for the whole, but for the places where it may
be otherwise. -/
theorem Shape.at?_of_absent {p : Path} {α : Type} {shape : Shape α} {d : α}
    (hd : shape.KeepsDefaults but here d) {n : Node} {a : α}
    (h : shape.read? anchors n = some a) (hp : p.avoidsItems = true)
    (hshape : (shape.at? p).isSome) (habsent : n.at? anchors p = none)
    (hbut : ∀ place ∈ but, ¬ place <+: here ++ p) :
    (shape.toJson a).at? p = (shape.toJson d).at? p := by
  induction p generalizing here α n with
  | nil => cases habsent
  | cons s p ih =>
    obtain ⟨sub, hsub⟩ := Option.isSome_iff_exists.mp hshape
    obtain ⟨next, hnext, hbelow⟩ := Option.bind_eq_some_iff.mp hsub
    cases s with
    | item i => cases hp
    | member name =>
      have hhere : here ++ [.member name] ∉ but :=
        fun hmem => hbut _ hmem ⟨p, (List.append_cons here (.member name) p).symm⟩
      cases shape with
      | record fields default toRow ofRow hofRow htoRow =>
        obtain ⟨e, he, hdefaults, hsame⟩ := hd.find? hnext
        have hstep : ((Shape.record fields default toRow ofRow hofRow htoRow).toJson d).step?
            (.member name) = some (next.2.toJson e) := he
        rw [Value.at?, Value.at?, hstep]
        cases hm : n.step? anchors (.member name) with
        | some m =>
          -- the record is given and reads its own default further down
          rw [Node.at?, hm] at habsent
          obtain ⟨b, hb, hstep'⟩ := Shape.step?_of_read? h hm hnext
          rw [hstep']
          refine ih hdefaults hb hp (Option.isSome_of_eq_some hbelow) habsent
            fun place hplace => ?_
          rw [← List.append_cons]
          exact hbut place hplace
        | none =>
          rw [read?] at h
          obtain ⟨es, hes, h⟩ := Option.bind_eq_some_iff.mp h
          obtain ⟨slots, hslots, h⟩ := Option.bind_eq_some_iff.mp h
          cases h
          rw [Node.step?, hes] at hm
          have hlookup := fields.lookup_absent hslots hm (toRow default)
          rw [hsame hhere] at hlookup
          rw [toJson, htoRow]
          show ((fields.toMembers _).lookup name).bind _ = _
          rw [hlookup]
      | textMap =>
        cases hd
        cases hnext
        cases p with
        | cons => cases hbelow
        | nil =>
          rw [read?] at h
          obtain ⟨es, hes, h⟩ := Option.bind_eq_some_iff.mp h
          obtain ⟨texts, htexts, h⟩ := Option.bind_eq_some_iff.mp h
          cases h
          have hnames := Entries.names_of_forall₂ (R := fun n t => Node.textIn anchors n = some t)
            (Node.texts_forall₂ htexts)
          have hlast : es.last? name = none := by
            rw [Node.at?, Node.step?, hes] at habsent
            simpa [Node.at?] using habsent
          rw [Entries.last?_eq_none, hnames, ← Entries.last?_eq_none] at hlast
          show (List.lookup name _).bind _ = _
          rw [TextMap.lookup_toJson, hlast]
          rfl
      | _ => cases hnext

end

end PlaneBridge
