import PlaneBridge.Proofs.Shape.Yaml

/-!
# What is given is kept

Where a path leads in a document, it leads in the message that is read from it: by `at?_of_read?`
the message holds there what the document says.  Changing the document at one place changes the
message at that place alone, `read?_modify`, and entries that no record has a member for change
nothing, `read?_known`.
-/

namespace PlaneBridge

open Json (Step Path Value)
open Yaml (Node)

theorem forall₂_of_mapM {α β : Type} {f : α → Option β} {xs : List α} {ys : List β}
    (h : xs.mapM f = some ys) : List.Forall₂ (fun x y => f x = some y) xs ys := by
  induction xs generalizing ys with
  | nil => cases h; exact .nil
  | cons x xs ih =>
    rw [List.mapM_cons] at h
    obtain ⟨y, hy, h⟩ := Option.bind_eq_some_iff.mp h
    obtain ⟨rest, hrest, h⟩ := Option.bind_eq_some_iff.mp h
    cases h
    exact .cons hy (ih hrest)

theorem getElem?_of_forall₂ {α β : Type} {R : α → β → Prop} {xs : List α} {ys : List β}
    (h : List.Forall₂ R xs ys) {i : Nat} {x : α} (hx : xs[i]? = some x) :
    ∃ y, ys[i]? = some y ∧ R x y := by
  obtain ⟨hi, rfl⟩ := List.getElem?_eq_some_iff.mp hx
  have hj : i < ys.length := h.length_eq ▸ hi
  exact ⟨ys[i], List.getElem?_eq_getElem hj, h.get hi hj⟩

theorem TextMap.lookup_toJson (texts : Entries String) (name : String) :
    (((TextMap.ofEntries texts).entries.map fun (k, v) => (k, Value.str v)).lookup name) =
      (texts.last? name).map .str := by
  rw [← Entries.lookup_sort]
  show ((texts.sort.map fun (k, v) => (k, Value.str v)).lookup name) = _
  induction texts.sort with
  | nil => rfl
  | cons e es ih =>
    obtain ⟨k, v⟩ := e
    rw [List.map_cons, Catalog.Keyed.lookup_cons, Catalog.Keyed.lookup_cons, ih]
    by_cases h : name = k
    · rw [if_pos h, if_pos h]; rfl
    · rw [if_neg h, if_neg h]

section

variable {anchors : List (Nat × Node)}

/-! ## The message holds what is given -/

theorem Fields.lookup_given {types : List Type} {fields : Fields types} {es : Entries Node}
    {slots : Slots types} (h : fields.read? anchors es = some slots) {name : String} {n : Node}
    (hn : es.last? name = some n) {sub : Σ β, Shape β} (hsub : fields.find? name = some sub)
    (defaults : Row types) :
    ∃ b, sub.2.read? anchors n = some b ∧
      (fields.toMembers (slots.fill defaults)).lookup name = some (sub.2.toJson b) := by
  induction types with
  | nil => cases fields; cases hsub
  | cons α types ih =>
    obtain _ | ⟨field, shape, rest⟩ := fields
    obtain ⟨d, defaults⟩ := defaults
    rw [read?] at h
    obtain ⟨slot, hslot, h⟩ := Option.bind_eq_some_iff.mp h
    obtain ⟨slots', hrest, h⟩ := Option.bind_eq_some_iff.mp h
    cases h
    rw [find?] at hsub
    rw [Slots.fill, toMembers, Catalog.Keyed.lookup_cons]
    by_cases hname : field = name
    · rw [if_pos hname] at hsub
      cases hsub
      rw [hname, hn] at hslot
      obtain ⟨a, ha, rfl⟩ := Option.map_eq_some_iff.mp hslot
      rw [if_pos hname.symm]
      exact ⟨a, ha, rfl⟩
    · rw [if_neg hname] at hsub
      rw [if_neg (Ne.symm hname)]
      exact ih hrest hsub defaults

theorem Fields.lookup_absent {types : List Type} {fields : Fields types} {es : Entries Node}
    {slots : Slots types} (h : fields.read? anchors es = some slots) {name : String}
    (hn : es.last? name = none) (defaults : Row types) :
    (fields.toMembers (slots.fill defaults)).lookup name =
      (fields.toMembers defaults).lookup name := by
  induction types with
  | nil => cases fields; rfl
  | cons α types ih =>
    obtain _ | ⟨field, shape, rest⟩ := fields
    obtain ⟨d, defaults⟩ := defaults
    rw [read?] at h
    obtain ⟨slot, hslot, h⟩ := Option.bind_eq_some_iff.mp h
    obtain ⟨slots', hrest, h⟩ := Option.bind_eq_some_iff.mp h
    cases h
    rw [Slots.fill, toMembers, toMembers, Catalog.Keyed.lookup_cons, Catalog.Keyed.lookup_cons]
    by_cases hname : name = field
    · rw [← hname, hn] at hslot
      cases hslot
      rw [if_pos hname, if_pos hname]
      rfl
    · rw [if_neg hname, if_neg hname]
      exact ih hrest defaults

/-- The texts of a map under their names. -/
theorem Yaml.Node.texts_forall₂ {es : Entries Node} {texts : Entries String}
    (h : es.mapM (fun e => do return (e.1, ← e.2.textIn anchors)) = some texts) :
    List.Forall₂ (fun e t => e.1 = t.1 ∧ e.2.textIn anchors = some t.2) es texts := by
  refine (forall₂_of_mapM h).imp fun e t het => ?_
  obtain ⟨text, htext, het⟩ := Option.bind_eq_some_iff.mp het
  cases het
  exact ⟨rfl, htext⟩

theorem Shape.read?_list {α : Type} (item : Shape α) (n : Node) :
    (Shape.list item).read? anchors n =
      ((n.resolve anchors).bind Node.items?).bind (·.mapM (item.read? anchors)) := by
  rw [read?, Option.bind_assoc]
  rfl

theorem Shape.step?_of_read? {α : Type} {shape : Shape α} {n m : Node} {a : α}
    (h : shape.read? anchors n = some a) {s : Step} (hm : n.step? anchors s = some m)
    {sub : Σ β, Shape β} (hsub : shape.step? s = some sub) :
    ∃ b, sub.2.read? anchors m = some b ∧ (shape.toJson a).step? s = some (sub.2.toJson b) := by
  cases shape with
  | record fields default toRow ofRow hofRow htoRow =>
    cases s with
    | item i => cases hsub
    | member name =>
      rw [read?] at h
      obtain ⟨es, hes, h⟩ := Option.bind_eq_some_iff.mp h
      obtain ⟨slots, hslots, h⟩ := Option.bind_eq_some_iff.mp h
      cases h
      rw [Node.step?, hes] at hm
      obtain ⟨b, hb, hlookup⟩ := fields.lookup_given hslots hm hsub (toRow default)
      refine ⟨b, hb, ?_⟩
      rw [toJson, htoRow]
      exact hlookup
  | textMap =>
    cases s with
    | item i => cases hsub
    | member name =>
      cases hsub
      rw [read?] at h
      obtain ⟨es, hes, h⟩ := Option.bind_eq_some_iff.mp h
      obtain ⟨texts, htexts, h⟩ := Option.bind_eq_some_iff.mp h
      cases h
      rw [Node.step?, hes] at hm
      obtain ⟨t, ht, hread⟩ := Entries.last?_of_forall₂ (R := fun m t => m.textIn anchors = some t)
        (Node.texts_forall₂ htexts) hm
      refine ⟨t, hread, ?_⟩
      show List.lookup name _ = _
      rw [TextMap.lookup_toJson, ht]
      rfl
  | list item =>
    cases s with
    | member name => cases hsub
    | item i =>
      cases hsub
      rw [read?_list] at h
      obtain ⟨items, hitems, h⟩ := Option.bind_eq_some_iff.mp h
      rw [Node.step?_item, hitems] at hm
      obtain ⟨b, hb, hread⟩ := getElem?_of_forall₂ (forall₂_of_mapM h) hm
      refine ⟨b, hread, ?_⟩
      show (List.map item.toJson a)[i]? = _
      rw [List.getElem?_map, hb]
      rfl
  | _ => cases s <;> cases hsub

theorem Shape.at?_of_read? {α : Type} {shape : Shape α} {n m : Node} {a : α}
    (h : shape.read? anchors n = some a) {p : Path} (hm : n.at? anchors p = some m)
    {sub : Σ β, Shape β} (hsub : shape.at? p = some sub) :
    ∃ b, sub.2.read? anchors m = some b ∧ (shape.toJson a).at? p = some (sub.2.toJson b) := by
  induction p generalizing α n with
  | nil =>
    cases hm
    cases hsub
    exact ⟨a, h, rfl⟩
  | cons s p ih =>
    obtain ⟨n', hn', hm⟩ := Option.bind_eq_some_iff.mp hm
    obtain ⟨next, hnext, hsub⟩ := Option.bind_eq_some_iff.mp hsub
    obtain ⟨a', ha', hstep⟩ := step?_of_read? h hn' hnext
    obtain ⟨b, hb, hat⟩ := ih ha' hm hsub
    refine ⟨b, hb, ?_⟩
    rw [Value.at?, hstep]
    exact hat

/-! ## Changing what is given -/

theorem Fields.names_toMembers {types : List Type} (fields : Fields types) (row : Row types) :
    (fields.toMembers row).map (·.1) = fields.names := (fields.encodes_toMembers row).names

theorem Fields.read?_modify {types : List Type} {fields : Fields types}
    (hnodup : fields.names.Nodup) {es : Entries Node} {slots : Slots types}
    (h : fields.read? anchors es = some slots) {name : String} {n : Node}
    (hn : es.last? name = some n) {sub : Σ β, Shape β} (hsub : fields.find? name = some sub)
    {f : Node → Node} {g : Value → Value} {b b' : sub.1} (hb : sub.2.read? anchors n = some b)
    (hb' : sub.2.read? anchors (f n) = some b') (hg : g (sub.2.toJson b) = sub.2.toJson b')
    (defaults : Row types) :
    ∃ slots', fields.read? anchors (es.modify name f) = some slots' ∧
      fields.toMembers (slots'.fill defaults) =
        (fields.toMembers (slots.fill defaults)).modify name g := by
  induction types with
  | nil => cases fields; cases hsub
  | cons α types ih =>
    obtain _ | ⟨field, shape, rest⟩ := fields
    obtain ⟨d, defaults⟩ := defaults
    obtain ⟨hfield, hnodup⟩ := List.nodup_cons.mp hnodup
    rw [read?] at h
    obtain ⟨slot, hslot, h⟩ := Option.bind_eq_some_iff.mp h
    obtain ⟨slots₁, hrest, h⟩ := Option.bind_eq_some_iff.mp h
    cases h
    rw [find?] at hsub
    rw [read?, Entries.last?_modify, Slots.fill, toMembers, Entries.modify_cons]
    by_cases hname : field = name
    · rw [if_pos hname] at hsub
      cases hsub
      subst hname
      rw [hn, Option.mapM_some, hb] at hslot
      cases hslot
      have hsame : rest.read? anchors (es.modify field f) = some slots₁ := by
        rw [← hrest]
        refine read?_congr fun k hk => ?_
        have hne : k ≠ field := fun heq => hfield (heq ▸ hk)
        rw [Entries.last?_modify, if_neg hne]
      refine ⟨(some b', slots₁), ?_, ?_⟩
      · rw [if_pos rfl, hn, Option.map_some, Option.mapM_some, hb', hsame]
        rfl
      · rw [if_pos rfl, Entries.modify_of_notMem (by rw [names_toMembers]; exact hfield)]
        show (field, shape.toJson b') :: _ = (field, g (shape.toJson b)) :: _
        rw [hg]
    · rw [if_neg hname] at hsub
      obtain ⟨slots₂, hread, hmembers⟩ := ih hnodup hrest hsub defaults
      refine ⟨(slot, slots₂), ?_, ?_⟩
      · rw [if_neg hname, hslot, hread]
        rfl
      · rw [if_neg hname, ← hmembers]
        rfl

theorem mapM_modify {α β : Type} {f : α → Option β} {xs : List α} {ys : List β}
    (h : xs.mapM f = some ys) {i : Nat} {x : α} (hx : xs[i]? = some x) {g : α → α} {y : β}
    (hy : f (g x) = some y) : (xs.modify i g).mapM f = some (ys.modify i fun _ => y) := by
  induction xs generalizing ys i with
  | nil => cases hx
  | cons a xs ih =>
    rw [List.mapM_cons] at h
    obtain ⟨b, hb, h⟩ := Option.bind_eq_some_iff.mp h
    obtain ⟨rest, hrest, h⟩ := Option.bind_eq_some_iff.mp h
    cases h
    cases i with
    | zero =>
      cases hx
      rw [List.modify_zero_cons, List.modify_zero_cons, List.mapM_cons, hy, hrest]
      rfl
    | succ i =>
      rw [List.modify_succ_cons, List.modify_succ_cons, List.mapM_cons, hb, ih hrest hx]
      rfl

theorem mapM_textIn_modify {es : Entries Node} {texts : Entries String}
    (h : es.mapM (fun e => do return (e.1, ← e.2.textIn anchors)) = some texts) {name t : String}
    {f : Node → Node} (hf : ∀ e ∈ es, e.1 = name → (f e.2).textIn anchors = some t) :
    (es.modify name f).mapM (fun e => do return (e.1, ← e.2.textIn anchors)) =
      some (texts.modify name fun _ => t) := by
  induction es generalizing texts with
  | nil => cases h; rfl
  | cons e es ih =>
    rw [List.mapM_cons] at h
    obtain ⟨_, he, h⟩ := Option.bind_eq_some_iff.mp h
    obtain ⟨u, hu, he⟩ := Option.bind_eq_some_iff.mp he
    obtain ⟨rest, hrest, h⟩ := Option.bind_eq_some_iff.mp h
    cases he
    cases h
    have htail := ih hrest fun e he => hf e (List.mem_cons_of_mem _ he)
    rw [Entries.modify_cons, Entries.modify_cons, List.mapM_cons, htail]
    by_cases hname : e.1 = name
    · rw [if_pos hname, if_pos hname]
      show Option.bind (do return (e.1, ← (f e.2).textIn anchors)) _ = _
      rw [hf e List.mem_cons_self hname]
      rfl
    · rw [if_neg hname, if_neg hname, hu]
      rfl

theorem Shape.regular_of_step? {α : Type} {shape : Shape α} (h : shape.regular = true) {s : Step}
    {sub : Σ β, Shape β} (hsub : shape.step? s = some sub) : sub.2.regular = true := by
  cases shape with
  | record fields =>
    cases s with
    | item i => cases hsub
    | member name =>
      rw [regular, Bool.and_eq_true] at h
      exact Fields.regular_of_find? h.2 hsub
  | textMap =>
    cases s with
    | item i => cases hsub
    | member name => cases hsub; rfl
  | list item =>
    cases s with
    | member name => cases hsub
    | item i => cases hsub; exact h
  | _ => cases s <;> cases hsub

theorem map_modify {α β : Type} {f : α → β} {xs : List α} {i : Nat} {b b' : α} (hb : xs[i]? = some b)
    {g : β → β} (hg : g (f b) = f b') :
    (xs.modify i fun _ => b').map f = (xs.map f).modify i g := by
  refine List.ext_getElem? fun j => ?_
  rw [List.getElem?_map, List.getElem?_modify, List.getElem?_modify, List.getElem?_map]
  by_cases h : i = j
  · subst h
    simp [hb, hg]
  · simp [h]

theorem TextMap.toJson_modify {texts : Entries String} {name b b' : String}
    (hb : texts.last? name = some b) {g : Value → Value} (hg : g (.str b) = .str b') :
    (TextMap.ofEntries (texts.modify name fun _ => b')).toJson =
      (TextMap.ofEntries texts).toJson.modifyStep g (.member name) := by
  show Value.obj ((texts.modify name fun _ => b').sort.map _) =
    Value.obj (Entries.modify name g (texts.sort.map fun (k, v) => (k, .str v)))
  rw [Entries.sort_modify, Entries.modify, Entries.modify, List.map_map, List.map_map]
  refine congrArg Value.obj (List.map_congr_left fun e he => ?_)
  obtain ⟨k, v⟩ := e
  by_cases hk : k = name
  · have hv : v = b := by
      have hlast := Entries.mem_sort.mp he
      rw [hk, hb] at hlast
      exact (Option.some.inj hlast).symm
    simp [hk, hv, hg]
  · simp [hk]

theorem Shape.read?_modifyStep {α : Type} {shape : Shape α} (hregular : shape.regular = true)
    {n m : Node} (htree : n.IsTree) {a : α} (h : shape.read? anchors n = some a) {s : Step}
    (hm : n.step? anchors s = some m) {sub : Σ β, Shape β} (hsub : shape.step? s = some sub)
    {f : Node → Node} (hf : ∀ n, n.IsTree → (f n).IsTree) {g : Value → Value} {b b' : sub.1}
    (hb : sub.2.read? anchors m = some b) (hb' : sub.2.read? anchors (f m) = some b')
    (hg : g (sub.2.toJson b) = sub.2.toJson b') :
    ∃ a', shape.read? anchors (n.modifyStep f s) = some a' ∧
      shape.toJson a' = (shape.toJson a).modifyStep g s := by
  cases shape with
  | record fields default toRow ofRow hofRow htoRow =>
    cases s with
    | item i => cases hsub
    | member name =>
      rw [regular, Bool.and_eq_true, decide_eq_true_eq] at hregular
      rw [read?] at h
      obtain ⟨es, hes, h⟩ := Option.bind_eq_some_iff.mp h
      obtain ⟨slots, hslots, h⟩ := Option.bind_eq_some_iff.mp h
      cases h
      rw [Node.step?, hes] at hm
      obtain ⟨slots', hslots', hmembers⟩ :=
        fields.read?_modify hregular.1 hslots hm hsub hb hb' hg (toRow default)
      refine ⟨ofRow (slots'.fill (toRow default)), ?_, ?_⟩
      · rw [read?, htree.members?_modifyStep hf, hes]
        show (fields.read? anchors (es.modify name f)).bind _ = _
        rw [hslots']
        rfl
      · rw [toJson, toJson, htoRow, htoRow, hmembers]
        rfl
  | textMap =>
    cases s with
    | item i => cases hsub
    | member name =>
      cases hsub
      rw [read?] at h
      obtain ⟨es, hes, h⟩ := Option.bind_eq_some_iff.mp h
      obtain ⟨texts, htexts, h⟩ := Option.bind_eq_some_iff.mp h
      cases h
      rw [Node.step?, hes] at hm
      -- no key comes twice, so what is under the name is one entry and the last
      have hnodup := htree.nodup_members? hes
      have hchanged : ∀ e ∈ es, e.1 = name → (f e.2).textIn anchors = some b' := by
        intro e he hname
        have hlookup := (Catalog.Keyed.mem_iff_lookup hnodup).mp (Entries.mem_of_last? hm)
        rw [← hname, (Catalog.Keyed.mem_iff_lookup hnodup).mp he] at hlookup
        rw [Option.some.inj hlookup]
        exact hb'
      obtain ⟨t, ht, hread⟩ := Entries.last?_of_forall₂ (R := fun m t => m.textIn anchors = some t)
        (Node.texts_forall₂ htexts) hm
      cases hb.symm.trans hread
      refine ⟨TextMap.ofEntries (Entries.modify name (fun _ => b') texts), ?_,
        TextMap.toJson_modify ht hg⟩
      rw [read?, htree.members?_modifyStep hf, hes]
      show Option.bind ((Entries.modify name f es).mapM _) _ = _
      rw [mapM_textIn_modify htexts hchanged]
      rfl
  | list item =>
    cases s with
    | member name => cases hsub
    | item i =>
      cases hsub
      rw [read?_list] at h
      obtain ⟨items, hitems, h⟩ := Option.bind_eq_some_iff.mp h
      rw [Node.step?_item, hitems] at hm
      obtain ⟨x, hx, hread⟩ := getElem?_of_forall₂ (forall₂_of_mapM h) hm
      cases hb.symm.trans hread
      refine ⟨a.modify i fun _ => b', ?_, congrArg Value.arr (map_modify hx hg)⟩
      rw [read?_list, htree.items?_modifyStep, hitems]
      exact mapM_modify h hm hb'
  | _ => cases s <;> cases hsub

theorem Shape.read?_modify {α : Type} {shape : Shape α} (hregular : shape.regular = true)
    {n m : Node} (htree : n.IsTree) {a : α} (h : shape.read? anchors n = some a) {p : Path}
    (hm : n.at? anchors p = some m) {sub : Σ β, Shape β} (hsub : shape.at? p = some sub)
    {f : Node → Node} (hf : ∀ n, n.IsTree → (f n).IsTree) {g : Value → Value} {b b' : sub.1}
    (hb : sub.2.read? anchors m = some b) (hb' : sub.2.read? anchors (f m) = some b')
    (hg : g (sub.2.toJson b) = sub.2.toJson b') :
    ∃ a', shape.read? anchors (n.modify f p) = some a' ∧
      shape.toJson a' = (shape.toJson a).modify g p := by
  induction p generalizing α n with
  | nil =>
    cases hm
    cases hsub
    cases hb.symm.trans h
    exact ⟨b', hb', hg.symm⟩
  | cons s p ih =>
    obtain ⟨n', hn', hm⟩ := Option.bind_eq_some_iff.mp hm
    obtain ⟨next, hnext, hsub⟩ := Option.bind_eq_some_iff.mp hsub
    obtain ⟨a₁, ha₁, hstep⟩ := step?_of_read? h hn' hnext
    obtain ⟨a₂, ha₂, hjson⟩ := ih (regular_of_step? hregular hnext) (htree.below hn') ha₁ hm hsub
    exact read?_modifyStep hregular htree h hn' hnext (fun _ hn => hn.modify hf p) ha₁ ha₂
      hjson.symm

theorem Shape.step?_toJson_scalar {α : Type} {shape : Shape α} (h : shape.isScalar = true) (a : α)
    (s : Step) : (shape.toJson a).step? s = none := by
  cases shape with
  | text | flag | int32 | int64 => cases s <;> rfl
  | optional => cases a <;> cases s <;> rfl
  | _ => cases h

/-- A scalar in a scalar's place changes nothing that does not hold it. -/
theorem Shape.at?_modify_scalar {α : Type} {shape : Shape α} (h : shape.isScalar = true) {v : Value}
    {p q : Path} {a : α} (hv : v.at? p = some (shape.toJson a)) (b : α) (hq : ¬ q <+: p) :
    (v.modify (fun _ => shape.toJson b) p).at? q = v.at? q := by
  by_cases hp : p <+: q
  · obtain ⟨r, rfl⟩ := hp
    cases r with
    | nil =>
      rw [List.append_nil] at hq
      exact absurd List.prefix_rfl hq
    | cons s r =>
      rw [Value.at?_modify, Value.at?_append, hv, Option.bind_some, Option.bind_some, Value.at?,
        Value.at?, step?_toJson_scalar h, step?_toJson_scalar h]
  · exact v.at?_modify_of_apart _ ⟨hp, hq⟩

/-! ## Entries that are not asked for -/

mutual

/-- The node without entries that no record has a member for. -/
def Shape.known : {α : Type} → Shape α → Node → Node
  | _, .list item, .sequence p items => .sequence p (items.map item.known)
  | _, .record fields .., .mapping p entries =>
    .mapping p (entries.filterMap fun e => fields.known e.1 e.2)
  | _, _, n => n

def Fields.known : {types : List Type} → Fields types → Node → Node → Option (Node × Node)
  | _, .nil, _, _ => none
  | _, .cons field shape rest, k, v =>
    if k.text? = some field then some (k, shape.known v) else rest.known k v

end

theorem Fields.known_eq {types : List Type} (fields : Fields types) {k : Node} {name : String}
    (hk : k.text? = some name) (v : Node) :
    fields.known k v = (fields.find? name).map fun sub => (k, sub.2.known v) := by
  induction types with
  | nil => cases fields; rfl
  | cons α types ih =>
    obtain _ | ⟨field, shape, rest⟩ := fields
    rw [known, find?, hk]
    by_cases h : field = name
    · rw [if_pos (congrArg some h.symm), if_pos h]
      rfl
    · rw [if_neg fun heq => h (Option.some.inj heq).symm, if_neg h, ih]

theorem Fields.named_known_sublist {types : List Type} (fields : Fields types)
    {entries : List (Node × Node)} (h : Node.EntriesTree entries) :
    ((Node.named (entries.filterMap fun e => fields.known e.1 e.2)).map (·.1)).Sublist
      ((Node.named entries).map (·.1)) := by
  induction entries with
  | nil => exact .slnil
  | cons e entries ih =>
    obtain ⟨k, v⟩ := e
    obtain ⟨hk, _, hrest⟩ := h
    obtain ⟨name, hname⟩ := Option.isSome_iff_exists.mp hk
    rw [List.filterMap_cons, fields.known_eq hname, Node.named_cons hname]
    cases fields.find? name with
    | none => exact (ih hrest).cons _
    | some sub =>
      show ((Node.named ((k, sub.2.known v) :: _)).map (·.1)).Sublist _
      rw [Node.named_cons hname]
      exact (ih hrest).cons_cons _

theorem Fields.last?_known {types : List Type} {fields : Fields types}
    {entries : List (Node × Node)} (h : Node.EntriesTree entries) {name : String}
    {sub : Σ β, Shape β} (hsub : fields.find? name = some sub) :
    (Node.named (entries.filterMap fun e => fields.known e.1 e.2)).last? name =
      ((Node.named entries).last? name).map sub.2.known := by
  induction entries with
  | nil => rfl
  | cons e entries ih =>
    obtain ⟨k, v⟩ := e
    obtain ⟨hk, _, hrest⟩ := h
    obtain ⟨key, hkey⟩ := Option.isSome_iff_exists.mp hk
    rw [List.filterMap_cons, fields.known_eq hkey, Node.named_cons hkey, Entries.last?]
    by_cases hname : key = name
    · subst hname
      rw [hsub]
      show Entries.last? key (Node.named ((k, sub.2.known v) :: _)) = _
      rw [Node.named_cons hkey, Entries.last?, ih hrest, if_pos rfl, if_pos rfl]
      cases Entries.last? key (Node.named entries) <;> rfl
    · rw [if_neg hname, Option.or_none, ← ih hrest]
      cases fields.find? key with
      | none => rfl
      | some other =>
        show Entries.last? name (Node.named ((k, other.2.known v) :: _)) = _
        rw [Node.named_cons hkey, Entries.last?, if_neg hname, Option.or_none]

theorem Yaml.Node.EntriesTree.filterMap {f : Node × Node → Option (Node × Node)}
    (hf : ∀ k v e, k.text?.isSome → v.IsTree → f (k, v) = some e → e.1.text?.isSome ∧ e.2.IsTree)
    {entries : List (Node × Node)} (h : EntriesTree entries) :
    EntriesTree (entries.filterMap f) := by
  induction entries with
  | nil => trivial
  | cons e entries ih =>
    obtain ⟨k, v⟩ := e
    obtain ⟨hk, hv, hrest⟩ := h
    rw [List.filterMap_cons]
    cases hfe : f (k, v) with
    | none => exact ih hrest
    | some e' =>
      obtain ⟨hk', hv'⟩ := hf k v e' hk hv hfe
      exact ⟨hk', hv', ih hrest⟩

mutual

theorem Shape.isTree_known : {α : Type} → (shape : Shape α) → {n : Node} → n.IsTree →
    (shape.known n).IsTree
  | _, .list item, .sequence _ items, h => by
    refine Node.itemsTree_iff.mpr fun m hm => ?_
    obtain ⟨n, hn, rfl⟩ := List.mem_map.mp hm
    exact item.isTree_known (Node.itemsTree_iff.mp h n hn)
  | _, .record fields .., .mapping _ entries, h =>
    ⟨(fields.named_known_sublist h.2).nodup h.1,
      h.2.filterMap fun _ _ _ hk hv he => fields.isTree_known hk hv he⟩
  | _, .text, _, h => h
  | _, .flag, _, h => h
  | _, .int32, _, h => h
  | _, .int64, _, h => h
  | _, .optional, _, h => h
  | _, .textMap, _, h => h
  | _, .freeForm, _, h => h
  | _, .list _, .scalar .., h => h
  | _, .list _, .mapping .., h => h
  | _, .record .., .scalar .., h => h
  | _, .record .., .sequence .., h => h

theorem Fields.isTree_known : {types : List Type} → (fields : Fields types) → {k v : Node} →
    {e : Node × Node} → k.text?.isSome → v.IsTree → fields.known k v = some e →
    e.1.text?.isSome ∧ e.2.IsTree
  | _, .nil, _, _, _, _, _, h => by cases h
  | _, .cons field shape rest, _, _, _, hk, hv, h => by
    rw [Fields.known] at h
    split at h
    · cases h
      exact ⟨hk, shape.isTree_known hv⟩
    · exact rest.isTree_known hk hv h

end

mutual

theorem Shape.read?_known : {α : Type} → (shape : Shape α) → shape.regular = true → {n : Node} →
    n.IsTree → shape.read? anchors (shape.known n) = shape.read? anchors n
  | _, .list item, hregular, .sequence p items, h => by
    have hitems : ∀ m ∈ items, item.read? anchors (item.known m) = item.read? anchors m :=
      fun m hm => item.read?_known hregular (Node.itemsTree_iff.mp h m hm)
    show (items.map item.known).mapM (item.read? anchors) = items.mapM (item.read? anchors)
    clear h
    induction items with
    | nil => rfl
    | cons m items ih =>
      rw [List.map_cons, List.mapM_cons, List.mapM_cons, hitems m List.mem_cons_self,
        ih fun m hm => hitems m (List.mem_cons_of_mem _ hm)]
  | _, .record fields default toRow ofRow _ _, hregular, .mapping p entries, h => by
    have htree := Shape.isTree_known (.record fields default toRow ofRow ‹_› ‹_›) h
    rw [Shape.regular, Bool.and_eq_true, decide_eq_true_eq] at hregular
    have hread := fields.read?_known hregular.1 hregular.2 (fun e he => h.2.isTree he)
      fun name sub hsub => Fields.last?_known h.2 hsub
    rw [Shape.read?, Shape.read?, htree.members?, h.members?]
    show (do return ofRow ((← fields.read? anchors _).fill (toRow default)) : Option _) =
      do return ofRow ((← fields.read? anchors _).fill (toRow default))
    rw [hread]
  | _, .text, _, _, _ => rfl
  | _, .flag, _, _, _ => rfl
  | _, .int32, _, _, _ => rfl
  | _, .int64, _, _, _ => rfl
  | _, .optional, _, _, _ => rfl
  | _, .textMap, _, _, _ => rfl
  | _, .list _, _, .scalar .., _ => rfl
  | _, .list _, _, .mapping .., _ => rfl
  | _, .record .., _, .scalar .., _ => rfl
  | _, .record .., _, .sequence .., _ => rfl

/-- It is enough that the known parts of what is read are there. -/
theorem Fields.read?_known : {types : List Type} → (fields : Fields types) → fields.names.Nodup →
    fields.regular = true → {es fs : Entries Node} → (∀ e ∈ fs, e.2.IsTree) →
    (∀ name sub, fields.find? name = some sub →
      es.last? name = (fs.last? name).map sub.2.known) →
    fields.read? anchors es = fields.read? anchors fs
  | _, .nil, _, _, _, _, _, _ => rfl
  | _, .cons field shape rest, hnodup, hregular, es, fs, htree, h => by
    obtain ⟨hfield, hnodup⟩ := List.nodup_cons.mp hnodup
    rw [Fields.regular, Bool.and_eq_true] at hregular
    have hhead := h field ⟨_, shape⟩ (if_pos rfl)
    have hrest := rest.read?_known hnodup hregular.2 htree
      fun name sub hsub => h name sub (by
        have hne : field ≠ name := fun heq => hfield (heq ▸ Fields.mem_names_of_find? hsub)
        rw [Fields.find?, if_neg hne]
        exact hsub)
    rw [Fields.read?, Fields.read?, hhead, hrest]
    cases hlast : fs.last? field with
    | none => rfl
    | some m =>
      have hm := shape.read?_known hregular.1
        (htree _ (Entries.mem_of_last? hlast))
      rw [Option.map_some, Option.mapM_some, Option.mapM_some, hm]

end

end

end PlaneBridge
