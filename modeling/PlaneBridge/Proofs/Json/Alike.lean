import PlaneBridge.Proofs.Shape.Given

/-!
# Nodes of the same value

Two nodes are `Alike` if they differ only in the order of members and in members that a later one of
the same name replaces, at whatever depth.  Nothing is sorted to say so; that reading free-form
makes one value of alike nodes is `Value.eq_of_alike`.
-/

namespace PlaneBridge

/-- Entries in order are the same if they hold the same under the same names. -/
theorem Entries.Increasing.ext_of_mem {β : Type} {es fs : Entries β} (hes : es.Increasing)
    (hfs : fs.Increasing) (hnames : ∀ name, name ∈ es.map (·.1) ↔ name ∈ fs.map (·.1))
    (h : ∀ name b c, (name, b) ∈ es → (name, c) ∈ fs → b = c) : es = fs := by
  refine hes.ext hfs fun name => Option.ext fun b => ?_
  rw [← Catalog.Keyed.mem_iff_lookup hes.nodup, ← Catalog.Keyed.mem_iff_lookup hfs.nodup]
  constructor
  · intro hb
    obtain ⟨⟨name', c⟩, hc, rfl⟩ := List.mem_map.mp ((hnames name).mp (List.mem_map_of_mem hb))
    rw [h _ b c hb hc]
    exact hc
  · intro hb
    obtain ⟨⟨name', c⟩, hc, rfl⟩ := List.mem_map.mp ((hnames name).mpr (List.mem_map_of_mem hb))
    rw [← h _ c b hc hb]
    exact hc

namespace Json

/-- The value of a node that is no array and no object. -/
def Node.leaf? : Node → Option Value
  | .null => some .null
  | .bool b => some (.bool b)
  | .num (some x) => some (.num x)
  | .str (some s) => some (.str s)
  | _ => none

mutual

/-- The nodes stand for the same value. -/
inductive Node.Alike : Node → Node → Prop
  | leaf {n : Node} {v : Value} (h : n.leaf? = some v) : Node.Alike n n
  | arr {items items' : List Node} (h : ItemsAlike items items') :
      Node.Alike (.arr items .closed) (.arr items' .closed)
  /-- Objects with the same names whose last members of each name are alike. -/
  | obj {es fs : Entries Node} (hnames : ∀ name, name ∈ es.map (·.1) ↔ name ∈ fs.map (·.1))
      (h : ∀ name n m, es.last? name = some n → fs.last? name = some m → Node.Alike n m) :
      Node.Alike (.obj (es.map fun (name, n) => (some name, n)) .closed)
        (.obj (fs.map fun (name, n) => (some name, n)) .closed)

inductive ItemsAlike : List Node → List Node → Prop
  | nil : ItemsAlike [] []
  | cons {n m : Node} {items items' : List Node} (h : Node.Alike n m)
      (hrest : ItemsAlike items items') : ItemsAlike (n :: items) (m :: items')

end

/-- The names that members have been given can be taken off again. -/
theorem map_some_injective {es fs : Entries Node}
    (h : (es.map fun (name, n) => (some name, n)) = fs.map fun (name, n) => (some name, n)) :
    es = fs := by
  refine List.map_injective_iff.mpr ?_ h
  rintro ⟨name, n⟩ ⟨name', n'⟩ heq
  cases heq
  rfl

/-! ## What nodes say -/

theorem Value.eq_of_leaf {v w : Value} {n : Node} (hn : n.leaf? = some w) (h : v.Says n) :
    v = w := by
  cases v with
  | arr vs =>
    obtain ⟨items, rfl, -⟩ := h
    cases hn
  | obj members =>
    obtain ⟨es, rfl, -⟩ := h
    cases hn
  | _ =>
    obtain rfl : n = _ := h
    exact Option.some.inj hn

theorem Value.says_arr {v : Value} {items : List Node} (h : v.Says (.arr items .closed)) :
    ∃ vs, v = .arr vs ∧ ItemsSay vs items := by
  cases v with
  | arr vs =>
    obtain ⟨items', heq, hitems⟩ := h
    cases heq
    exact ⟨vs, rfl, hitems⟩
  | obj members =>
    obtain ⟨es, heq, -⟩ := h
    cases heq
  | _ => cases h

theorem Value.says_obj {v : Value} {es : Entries Node}
    (h : v.Says (.obj (es.map fun (name, n) => (some name, n)) .closed)) :
    ∃ members, v = .obj members ∧ Entries.Increasing members ∧
      (∀ name, name ∈ es.map (·.1) ↔ name ∈ members.map (·.1)) ∧ MembersSay members es := by
  cases v with
  | obj members =>
    obtain ⟨fs, heq, hsay⟩ := h
    obtain ⟨heq, -⟩ := Node.obj.inj heq
    cases map_some_injective heq
    exact ⟨members, rfl, hsay⟩
  | arr vs =>
    obtain ⟨items, heq, -⟩ := h
    cases heq
  | _ => cases h

/-! ## One value -/

mutual

theorem Value.eq_of_alike {n m : Node} : n.Alike m → {v w : Value} → v.Says n → w.Says m → v = w
  | .leaf h, v, w, hv, hw => (Value.eq_of_leaf h hv).trans (Value.eq_of_leaf h hw).symm
  | .arr h, v, w, hv, hw => by
    obtain ⟨vs, rfl, hvs⟩ := Value.says_arr hv
    obtain ⟨ws, rfl, hws⟩ := Value.says_arr hw
    rw [items_eq_of_alike h hvs hws]
  | .obj hnames h, v, w, hv, hw => by
    obtain ⟨vs, rfl, hvs, hvnames, hvsay⟩ := Value.says_obj hv
    obtain ⟨ws, rfl, hws, hwnames, hwsay⟩ := Value.says_obj hw
    refine congrArg Value.obj (hvs.ext_of_mem hws (fun name => ?_) fun name v w hv hw => ?_)
    · rw [← hvnames, hnames, hwnames]
    · obtain ⟨n, hn, hv⟩ := membersSay_iff.mp hvsay _ hv
      obtain ⟨m, hm, hw⟩ := membersSay_iff.mp hwsay _ hw
      exact Value.eq_of_alike (h name n m hn hm) hv hw

theorem items_eq_of_alike {items items' : List Node} : ItemsAlike items items' →
    {vs ws : List Value} → ItemsSay vs items → ItemsSay ws items' → vs = ws
  | .nil, [], [], _, _ => rfl
  | .cons h hrest, v :: vs, w :: ws, hv, hw => by
    obtain ⟨_, _, heq, hv, hvs⟩ := hv
    obtain ⟨_, _, heq', hw, hws⟩ := hw
    cases heq
    cases heq'
    rw [Value.eq_of_alike h hv hw, items_eq_of_alike hrest hvs hws]

end

end Json
end PlaneBridge
