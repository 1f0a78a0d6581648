import PlaneBridge.Proofs.Shape.Json
import PlaneBridge.Proofs.Yaml.Path

/-!
# What a document says

`Shape.read?` says what a node says to a shape, member by member, without counting references and
without an order in which entries are met.  A document that is read says just that, by
`read?_of_ofNode`; a tree is read whenever it says something, by `ofNode_of_read?`.
-/

namespace PlaneBridge

open Json (Step Path)
open Yaml (Node Following)

/-- What a scalar says. -/
def Shape.scalar? : {α : Type} → Shape α → Node → Option α
  | _, .text, n => n.text?
  | _, .flag, n => n.plain?.bind Yaml.Plain.flag?
  | _, .int32, n => (n.integer? (-0x80000000) 0x7fffffff).map Int32.ofInt
  | _, .int64, n => (n.integer? (-0x8000000000000000) 0x7fffffffffffffff).map Int64.ofInt
  | _, .optional, n => n.optional?
  | _, _, _ => none

/-- Whether values of the shape are written as scalars. -/
def Shape.isScalar : {α : Type} → Shape α → Bool
  | _, .text | _, .flag | _, .int32 | _, .int64 | _, .optional => true
  | _, _ => false

theorem Shape.isRecord_of_isScalar {α : Type} {shape : Shape α} (h : shape.isScalar = true) :
    shape.isRecord = false := by
  cases shape with
  | record => cases h
  | _ => rfl

mutual

/-- What a node says. -/
def Shape.read? (anchors : List (Nat × Node)) : {α : Type} → Shape α → Node → Option α
  | _, .textMap, n => do
    let texts ← (← n.members? anchors).mapM fun e => do return (e.1, ← e.2.textIn anchors)
    return TextMap.ofEntries texts
  | _, .list item, n => do (← (← n.resolve anchors).items?).mapM (item.read? anchors)
  | _, .record fields default toRow ofRow _ _, n => do
    return ofRow ((← fields.read? anchors (← n.members? anchors)).fill (toRow default))
  | _, shape, n => do shape.scalar? (← n.resolve anchors)

/-- What the last entry of each name says. -/
def Fields.read? (anchors : List (Nat × Node)) : {types : List Type} → Fields types →
    Entries Node → Option (Slots types)
  | _, .nil, _ => some ()
  | _, .cons name shape rest, es => do
    return (← (es.last? name).mapM (shape.read? anchors), ← rest.read? anchors es)

end

/-! ## Steps that may run out -/

namespace Yaml.Following

variable {α β γ : Type}

theorem bind_eq_some {x : Following α} {f : α → Following β} {s s'' : Nat} {b : β}
    (h : (x >>= f) s = some (b, s'')) : ∃ a s', x s = some (a, s') ∧ f a s' = some (b, s'') := by
  obtain ⟨⟨a, s'⟩, hx, hf⟩ := Option.bind_eq_some_iff.mp h
  exact ⟨a, s', hx, hf⟩

theorem lift_eq_some {o : Option α} {s s' : Nat} {a : α}
    (h : (liftM o : Following α) s = some (a, s')) : o = some a ∧ s' = s := by
  cases o with
  | none => cases h
  | some b => cases h; exact ⟨rfl, rfl⟩

theorem lift_bind (o : Option α) (f : α → Option β) :
    (liftM o >>= fun a => liftM (f a) : Following β) = liftM (o.bind f) := by
  funext s
  cases o <;> rfl

theorem lift_map (o : Option α) (f : α → β) :
    (do return f (← liftM o) : Following β) = liftM (o.map f) := by
  funext s
  cases o <;> rfl

theorem mapM_eq_some {f : α → Following β} {g : α → Option β}
    (h : ∀ a s b s', f a s = some (b, s') → g a = some b) {xs : List α} {s s' : Nat} {bs : List β}
    (hxs : xs.mapM f s = some (bs, s')) : xs.mapM g = some bs := by
  induction xs generalizing s bs with
  | nil => cases hxs; rfl
  | cons x xs ih =>
    rw [List.mapM_cons] at hxs
    obtain ⟨b, s₁, hx, hxs⟩ := bind_eq_some hxs
    obtain ⟨bs', s₂, hrest, hxs⟩ := bind_eq_some hxs
    cases hxs
    rw [List.mapM_cons, h _ _ _ _ hx, ih hrest]
    rfl

end Yaml.Following

namespace Yaml.Node

variable {anchors : List (Nat × Node)}

theorem resolve_of_target {n m : Node} {s s' : Nat} (h : n.target anchors s = some (m, s')) :
    n.resolve anchors = some m := by
  cases n with
  | reference number =>
    rw [target] at h
    obtain ⟨left, s₁, hget, h⟩ := Following.bind_eq_some h
    cases left with
    | zero => cases h
    | succ left =>
      obtain ⟨_, _, _, h⟩ := Following.bind_eq_some h
      exact (Following.lift_eq_some h).1
  | _ => cases h; rfl

theorem textIn_of_toText {n : Node} {t : String} {s s' : Nat}
    (h : n.toText anchors s = some (t, s')) : n.textIn anchors = some t := by
  obtain ⟨m, s₁, htarget, h⟩ := Following.bind_eq_some h
  rw [textIn, resolve_of_target htarget]
  exact (Following.lift_eq_some h).1

end Yaml.Node

theorem Shape.ofNode_scalar (anchors : List (Nat × Node)) {α : Type} {shape : Shape α}
    (h : shape.isScalar = true) (n : Node) :
    shape.ofNode anchors n = n.target anchors >>= fun m => liftM (shape.scalar? m) := by
  cases shape with
  | text => rfl
  | flag => exact bind_congr fun m => Following.lift_bind m.plain? Yaml.Plain.flag?
  | int32 => exact bind_congr fun m => Following.lift_map _ Int32.ofInt
  | int64 => exact bind_congr fun m => Following.lift_map _ Int64.ofInt
  | optional => rfl
  | _ => cases h

theorem Shape.read?_scalar {anchors : List (Nat × Node)} {α : Type} {shape : Shape α}
    (h : shape.isScalar = true) (n : Node) :
    shape.read? anchors n = (n.resolve anchors).bind shape.scalar? := by
  cases shape with
  | text | flag | int32 | int64 | optional => rfl
  | _ => cases h

/-- What says something as a scalar is one. -/
theorem Shape.isTree_of_scalar? {α : Type} {shape : Shape α} {n : Node} {a : α}
    (h : shape.scalar? n = some a) : n.IsTree := by
  cases n with
  | scalar => trivial
  | _ => cases shape <;> cases h

theorem Shape.read?_of_ofNode_scalar {anchors : List (Nat × Node)} {α : Type} {shape : Shape α}
    (hscalar : shape.isScalar = true) {n : Node} {s s' : Nat} {a : α}
    (h : shape.ofNode anchors n s = some (a, s')) : shape.read? anchors n = some a := by
  rw [ofNode_scalar anchors hscalar] at h
  obtain ⟨m, s₁, htarget, h⟩ := Following.bind_eq_some h
  have hm := (Following.lift_eq_some h).1
  have hresolve := Node.resolve_of_target htarget
  rw [read?_scalar hscalar, hresolve]
  exact hm

/-! ## What is read is what the node says -/

section

variable {anchors : List (Nat × Node)}

/-- What fields read of entries hangs on the last entries of their names. -/
theorem Fields.read?_congr {types : List Type} {fields : Fields types} {es fs : Entries Node}
    (h : ∀ name ∈ fields.names, es.last? name = fs.last? name) :
    fields.read? anchors es = fields.read? anchors fs := by
  induction types with
  | nil => cases fields; rfl
  | cons α types ih =>
    obtain _ | ⟨name, shape, rest⟩ := fields
    have hrest : rest.read? anchors es = rest.read? anchors fs :=
      ih fun n hn => h n (List.mem_cons_of_mem _ hn)
    rw [read?, read?, h name List.mem_cons_self, hrest]

theorem Fields.read?_append_skip {types : List Type} {fields : Fields types} {name : String}
    (hname : name ∉ fields.names) (es : Entries Node) (n : Node) :
    fields.read? anchors (es ++ [(name, n)]) = fields.read? anchors es := by
  refine read?_congr fun field hfield => ?_
  have hne : name ≠ field := fun heq => hname (heq ▸ hfield)
  rw [Entries.last?_append, Entries.last?_singleton, if_neg hne, Option.none_or]

theorem Fields.read?_empty {types : List Type} (fields : Fields types) :
    fields.read? anchors [] = some Slots.empty := by
  induction types with
  | nil => cases fields; rfl
  | cons α types ih =>
    obtain _ | ⟨name, shape, rest⟩ := fields
    rw [read?, ih]
    rfl

/-- Keys and values that are read at once can be read one after the other. -/
theorem Yaml.Node.mapM_textIn {entries : List (Node × Node)} {texts : Entries String}
    (h : entries.mapM (fun e => do return (← e.1.textIn anchors, ← e.2.textIn anchors)) =
      some texts) :
    ∃ es, entries.mapM (fun e => do return (← e.1.textIn anchors, e.2)) = some es ∧
      es.mapM (fun e => do return (e.1, ← e.2.textIn anchors)) = some texts := by
  induction entries generalizing texts with
  | nil => exact ⟨[], rfl, h⟩
  | cons e entries ih =>
    rw [List.mapM_cons] at h
    obtain ⟨_, he, h⟩ := Option.bind_eq_some_iff.mp h
    obtain ⟨name, hname, he⟩ := Option.bind_eq_some_iff.mp he
    obtain ⟨t, ht, he⟩ := Option.bind_eq_some_iff.mp he
    obtain ⟨rest, hrest, h⟩ := Option.bind_eq_some_iff.mp h
    cases he
    cases h
    obtain ⟨es, hes, hrest⟩ := ih hrest
    refine ⟨(name, e.2) :: es, ?_, ?_⟩
    · rw [List.mapM_cons, hname, hes]
      rfl
    · rw [List.mapM_cons, ht, hrest]
      rfl

/-- What one entry adds, all entries add. -/
theorem Fields.read?_of_foldlM {types : List Type} {fields : Fields types}
    (hput : ∀ {es slots slots' name n s s'}, fields.read? anchors es = some slots →
      fields.putNode anchors name n slots s = some (slots', s') →
      fields.read? anchors (es ++ [(name, n)]) = some slots')
    {entries : List (Node × Node)} {before : Entries Node} {slots slots' : Slots types}
    {s s' : Nat} (hbefore : fields.read? anchors before = some slots)
    (h : entries.foldlM (m := Following) (fun slots (name, value) => do
      fields.putNode anchors (← name.toText anchors) value slots) slots s = some (slots', s')) :
    ∃ es, entries.mapM (fun e => do return (← e.1.textIn anchors, e.2)) = some es ∧
      fields.read? anchors (before ++ es) = some slots' := by
  induction entries generalizing before slots s with
  | nil =>
    cases h
    exact ⟨[], rfl, by rw [List.append_nil]; exact hbefore⟩
  | cons e entries ih =>
    obtain ⟨k, v⟩ := e
    rw [List.foldlM_cons] at h
    obtain ⟨next, s₁, hstep, h⟩ := Following.bind_eq_some h
    obtain ⟨name, s₂, hname, hstep⟩ := Following.bind_eq_some hstep
    obtain ⟨es, hes, hread⟩ := ih (hput hbefore hstep) h
    refine ⟨(name, v) :: es, ?_, ?_⟩
    · rw [List.mapM_cons, Node.textIn_of_toText hname, hes]
      rfl
    · rw [List.append_assoc] at hread
      exact hread

mutual

theorem Shape.read?_of_ofNode : {α : Type} → (shape : Shape α) → shape.regular = true → {n : Node} →
    {s s' : Nat} → {a : α} → shape.ofNode anchors n s = some (a, s') →
    shape.read? anchors n = some a
  | _, .text, _, _, _, _, _, h => Shape.read?_of_ofNode_scalar rfl h
  | _, .flag, _, _, _, _, _, h => Shape.read?_of_ofNode_scalar rfl h
  | _, .int32, _, _, _, _, _, h => Shape.read?_of_ofNode_scalar rfl h
  | _, .int64, _, _, _, _, _, h => Shape.read?_of_ofNode_scalar rfl h
  | _, .optional, _, _, _, _, _, h => Shape.read?_of_ofNode_scalar rfl h
  | _, .freeForm, _, _, _, _, _, h => by cases h
  | _, .textMap, _, n, _, _, _, h => by
    obtain ⟨m, s₁, htarget, h⟩ := Following.bind_eq_some h
    obtain ⟨entries, s₂, hentries, h⟩ := Following.bind_eq_some h
    obtain ⟨texts, s₃, htexts, h⟩ := Following.bind_eq_some h
    cases h
    have hentry : ∀ (e : Node × Node) (s : Nat) (b : String × String) (s' : Nat),
        (do return (← e.1.toText anchors, ← e.2.toText anchors) : Following _) s = some (b, s') →
          (do return (← e.1.textIn anchors, ← e.2.textIn anchors) : Option _) = some b := by
      intro e s b s' he
      obtain ⟨name, s₄, hname, he⟩ := Following.bind_eq_some he
      obtain ⟨t, s₅, ht, he⟩ := Following.bind_eq_some he
      cases he
      rw [Node.textIn_of_toText hname, Node.textIn_of_toText ht]
      rfl
    obtain ⟨es, hes, htexts⟩ := Node.mapM_textIn (Following.mapM_eq_some hentry htexts)
    have hmembers : n.members? anchors = some es := by
      rw [Node.members?, Node.resolve_of_target htarget]
      show m.entries?.bind _ = _
      rw [(Following.lift_eq_some hentries).1]
      exact hes
    rw [Shape.read?, hmembers]
    show Option.bind (es.mapM _) _ = _
    rw [htexts]
    rfl
  | _, .list item, hregular, n, _, _, _, h => by
    obtain ⟨m, s₁, htarget, h⟩ := Following.bind_eq_some h
    obtain ⟨items, s₂, hitems, h⟩ := Following.bind_eq_some h
    rw [Shape.read?, Node.resolve_of_target htarget]
    show m.items?.bind _ = _
    rw [(Following.lift_eq_some hitems).1]
    exact Following.mapM_eq_some (fun _ _ _ _ hx => item.read?_of_ofNode hregular hx) h
  | _, .record fields default toRow ofRow _ _, hregular, n, _, _, _, h => by
    rw [Shape.regular, Bool.and_eq_true, decide_eq_true_eq] at hregular
    obtain ⟨m, s₁, htarget, h⟩ := Following.bind_eq_some h
    obtain ⟨entries, s₂, hentries, h⟩ := Following.bind_eq_some h
    obtain ⟨slots, s₃, hslots, h⟩ := Following.bind_eq_some h
    cases h
    obtain ⟨es, hes, hread⟩ := Fields.read?_of_foldlM
      (fun hes hput => fields.read?_of_putNode hregular.1 hregular.2 hes hput)
      fields.read?_empty hslots
    have hmembers : n.members? anchors = some es := by
      rw [Node.members?, Node.resolve_of_target htarget]
      show m.entries?.bind _ = _
      rw [(Following.lift_eq_some hentries).1]
      exact hes
    rw [Shape.read?, hmembers]
    rw [List.nil_append] at hread
    show (fields.read? anchors es).bind _ = _
    rw [hread]
    rfl

theorem Fields.read?_of_putNode : {types : List Type} → (fields : Fields types) →
    fields.names.Nodup → fields.regular = true → {es : Entries Node} → {slots slots' : Slots types} →
    {name : String} → {n : Node} → {s s' : Nat} → fields.read? anchors es = some slots →
    fields.putNode anchors name n slots s = some (slots', s') →
    fields.read? anchors (es ++ [(name, n)]) = some slots'
  | _, .nil, _, _, _, _, _, _, _, _, _, _, h => by cases h; rfl
  | _, .cons field shape rest, hnodup, hregular, es, (slot, slots), _, name, n, s, s', hes, h => by
    obtain ⟨hfield, hnodup⟩ := List.nodup_cons.mp hnodup
    rw [Fields.regular, Bool.and_eq_true] at hregular
    rw [Fields.read?] at hes
    obtain ⟨slot₁, hslot, hes⟩ := Option.bind_eq_some_iff.mp hes
    obtain ⟨slots₁, hrest, hes⟩ := Option.bind_eq_some_iff.mp hes
    cases hes
    rw [Fields.putNode] at h
    rw [Fields.read?, Entries.last?_append, Entries.last?_singleton]
    by_cases hname : name = field
    · rw [if_pos hname] at h
      split at h
      · cases h
      · obtain ⟨a, s₁, ha, h⟩ := Following.bind_eq_some h
        cases h
        have hread := shape.read?_of_ofNode hregular.1 ha
        rw [if_pos hname, Option.some_or, Option.mapM_some]
        show (do return (← some <$> shape.read? anchors n, ← rest.read? anchors (es ++ [(name, n)]))) = _
        rw [hread, Fields.read?_append_skip (hname ▸ hfield), hrest]
        rfl
    · rw [if_neg hname] at h
      obtain ⟨slots₂, s₁, hput, h⟩ := Following.bind_eq_some h
      cases h
      rw [if_neg hname, Option.none_or, hslot,
        rest.read?_of_putNode hnodup hregular.2 hrest hput]
      rfl

end

/-! ## What a tree says is read -/

theorem Yaml.Following.mapM_of_eq_some {α β : Type} {f : α → Following β} {g : α → Option β}
    {xs : List α} (h : ∀ a ∈ xs, ∀ b s, g a = some b → f a s = some (b, s)) {bs : List β}
    (hxs : xs.mapM g = some bs) (s : Nat) : xs.mapM f s = some (bs, s) := by
  induction xs generalizing bs with
  | nil => cases hxs; rfl
  | cons x xs ih =>
    rw [List.mapM_cons] at hxs
    obtain ⟨b, hx, hxs⟩ := Option.bind_eq_some_iff.mp hxs
    obtain ⟨bs', hrest, hxs⟩ := Option.bind_eq_some_iff.mp hxs
    cases hxs
    have hhead := h x List.mem_cons_self b s hx
    have htail := ih (fun a ha => h a (List.mem_cons_of_mem _ ha)) hrest
    rw [List.mapM_cons]
    show (f x s).bind _ = _
    rw [hhead]
    show (xs.mapM f s).bind _ = _
    rw [htail]
    rfl

theorem Yaml.Node.IsTree.target {n : Node} (h : n.IsTree) (s : Nat) :
    n.target anchors s = some (n, s) := by
  cases n with
  | reference => cases h
  | _ => rfl

theorem Yaml.Node.toText_of_text? {k : Node} {name : String} (h : k.text? = some name) (s : Nat) :
    k.toText anchors s = some (name, s) := by
  cases k with
  | scalar => cases h; rfl
  | _ => cases h

theorem Yaml.Node.IsTree.toText {n : Node} (h : n.IsTree) {anchors' : List (Nat × Node)} {t : String}
    (ht : n.textIn anchors' = some t) (s : Nat) : n.toText anchors s = some (t, s) := by
  rw [textIn, h.resolve] at ht
  exact toText_of_text? ht s

theorem Yaml.Node.EntriesTree.mapM_toText {anchors' : List (Nat × Node)}
    {entries : List (Node × Node)} (h : EntriesTree entries) {texts : Entries String}
    (htexts : (named entries).mapM (fun e => do return (e.1, ← e.2.textIn anchors)) = some texts)
    (s : Nat) :
    entries.mapM (m := Following)
      (fun (name, text) => do return (← name.toText anchors', ← text.toText anchors')) s =
        some (texts, s) := by
  induction entries generalizing texts with
  | nil => cases htexts; rfl
  | cons e entries ih =>
    obtain ⟨k, v⟩ := e
    obtain ⟨hk, hv, hrest⟩ := h
    obtain ⟨name, hname⟩ := Option.isSome_iff_exists.mp hk
    rw [named_cons hname, List.mapM_cons] at htexts
    obtain ⟨_, he, htexts⟩ := Option.bind_eq_some_iff.mp htexts
    obtain ⟨t, ht, he⟩ := Option.bind_eq_some_iff.mp he
    obtain ⟨rest, hread, htexts⟩ := Option.bind_eq_some_iff.mp htexts
    cases he
    cases htexts
    have hentry : (do return (← k.toText anchors', ← v.toText anchors') : Following _) s =
        some ((name, t), s) := by
      show (k.toText anchors' s).bind _ = _
      rw [toText_of_text? hname]
      show (v.toText anchors' s).bind _ = _
      rw [hv.toText ht]
      rfl
    rw [List.mapM_cons]
    show Option.bind ((do return (← k.toText anchors', ← v.toText anchors') : Following _) s) _ = _
    rw [hentry]
    show Option.bind (entries.mapM (m := Following) _ s) _ = _
    rw [ih hrest hread]
    rfl

/-- Entries of different names are read one by one if they are read together. -/
theorem Fields.read?_prefix {types : List Type} {fields : Fields types} {es fs : Entries Node}
    (hnodup : ((es ++ fs).map (·.1)).Nodup) {slots : Slots types}
    (h : fields.read? anchors (es ++ fs) = some slots) :
    ∃ slots, fields.read? anchors es = some slots := by
  induction types with
  | nil => cases fields; exact ⟨(), rfl⟩
  | cons α types ih =>
    obtain _ | ⟨name, shape, rest⟩ := fields
    rw [read?] at h
    obtain ⟨slot, hslot, h⟩ := Option.bind_eq_some_iff.mp h
    obtain ⟨slots, hrest, h⟩ := Option.bind_eq_some_iff.mp h
    obtain ⟨slots, hslots⟩ := ih hrest
    cases hlast : es.last? name with
    | none =>
      refine ⟨(none, slots), ?_⟩
      rw [read?, hlast, hslots]
      rfl
    | some n =>
      have hnone : fs.last? name = none := by
        rw [Entries.last?_eq_none]
        rw [List.map_append] at hnodup
        exact fun hmem => (List.nodup_append.mp hnodup).2.2 name
          (List.mem_map_of_mem (Entries.mem_of_last? hlast)) name hmem rfl
      rw [Entries.last?_append, hnone, Option.none_or, hlast] at hslot
      refine ⟨(slot, slots), ?_⟩
      rw [read?, hlast, hslot, hslots]
      rfl

theorem Fields.foldlM_of_read? (anchors' : List (Nat × Node)) {types : List Type}
    {fields : Fields types}
    (hput : ∀ {es slots slots' name n s}, n.IsTree → name ∉ es.map (·.1) →
      fields.read? anchors es = some slots → fields.read? anchors (es ++ [(name, n)]) = some slots' →
      fields.putNode anchors' name n slots s = some (slots', s))
    {entries : List (Node × Node)} (htree : Node.EntriesTree entries) {before : Entries Node}
    (hnodup : ((before ++ Node.named entries).map (·.1)).Nodup) {slots slots' : Slots types}
    (hbefore : fields.read? anchors before = some slots)
    (h : fields.read? anchors (before ++ Node.named entries) = some slots') (s : Nat) :
    entries.foldlM (m := Following) (fun slots (name, value) => do
      fields.putNode anchors' (← name.toText anchors') value slots) slots s = some (slots', s) := by
  induction entries generalizing before slots with
  | nil =>
    rw [show Node.named [] = [] from rfl, List.append_nil] at h
    cases hbefore.symm.trans h
    rfl
  | cons e entries ih =>
    obtain ⟨k, v⟩ := e
    obtain ⟨hk, hv, hrest⟩ := htree
    obtain ⟨name, hname⟩ := Option.isSome_iff_exists.mp hk
    rw [Node.named_cons hname, List.append_cons] at hnodup h
    obtain ⟨next, hnext⟩ := read?_prefix hnodup h
    have hnew : name ∉ before.map (·.1) := by
      intro hmem
      rw [List.append_assoc, List.map_append] at hnodup
      exact (List.nodup_append.mp hnodup).2.2 name hmem name List.mem_cons_self rfl
    have hstep : (do fields.putNode anchors' (← k.toText anchors') v slots : Following _) s =
        some (next, s) := by
      show (k.toText anchors' s).bind _ = _
      rw [Node.toText_of_text? hname]
      exact hput hv hnew hbefore hnext
    rw [List.foldlM_cons]
    show Option.bind ((do fields.putNode anchors' (← k.toText anchors') v slots : Following _) s) _ = _
    rw [hstep]
    exact ih hrest hnodup hnext h

theorem Shape.ofNode_of_read?_scalar (anchors' : List (Nat × Node)) {α : Type} {shape : Shape α}
    (hscalar : shape.isScalar = true) {n : Node} (htree : n.IsTree) {a : α}
    (h : shape.read? anchors n = some a) (s : Nat) :
    shape.ofNode anchors' n s = some (a, s) := by
  rw [read?_scalar hscalar, htree.resolve] at h
  rw [ofNode_scalar anchors' hscalar]
  show (n.target anchors' s).bind _ = _
  rw [htree.target]
  show (liftM (shape.scalar? n) : Following α) s = _
  rw [show shape.scalar? n = some a from h]
  rfl

mutual

theorem Shape.ofNode_of_read? (anchors' : List (Nat × Node)) : {α : Type} → (shape : Shape α) →
    shape.regular = true → {n : Node} → n.IsTree → {a : α} → shape.read? anchors n = some a →
    (s : Nat) → shape.ofNode anchors' n s = some (a, s)
  | _, .text, _, _, htree, _, h, s => Shape.ofNode_of_read?_scalar anchors' rfl htree h s
  | _, .flag, _, _, htree, _, h, s => Shape.ofNode_of_read?_scalar anchors' rfl htree h s
  | _, .int32, _, _, htree, _, h, s => Shape.ofNode_of_read?_scalar anchors' rfl htree h s
  | _, .int64, _, _, htree, _, h, s => Shape.ofNode_of_read?_scalar anchors' rfl htree h s
  | _, .optional, _, _, htree, _, h, s => Shape.ofNode_of_read?_scalar anchors' rfl htree h s
  | _, .textMap, _, n, htree, _, h, s => by
    rw [Shape.read?, htree.members?] at h
    obtain ⟨es, hes, h⟩ := Option.bind_eq_some_iff.mp h
    obtain ⟨entries, hentries, rfl⟩ := Option.map_eq_some_iff.mp hes
    obtain ⟨texts, htexts, h⟩ := Option.bind_eq_some_iff.mp h
    cases h
    show (n.target anchors' s).bind _ = _
    rw [htree.target]
    show Option.bind ((liftM n.entries? : Following _) s) _ = _
    rw [hentries]
    show Option.bind (entries.mapM (m := Following) _ s) _ = _
    rw [(htree.entries hentries).2.mapM_toText htexts]
    rfl
  | _, .list item, hregular, n, htree, xs, h, s => by
    rw [Shape.read?, htree.resolve] at h
    obtain ⟨_, hself, h⟩ := Option.bind_eq_some_iff.mp h
    cases hself
    obtain ⟨items, hitems, h⟩ := Option.bind_eq_some_iff.mp h
    have hread : items.mapM (item.ofNode anchors') s = some (xs, s) :=
      Following.mapM_of_eq_some (fun m hm _ s hx => item.ofNode_of_read? anchors' hregular
        (Node.itemsTree_iff.mp (htree.items hitems) m hm) hx s) h s
    show (n.target anchors' s).bind _ = _
    rw [htree.target]
    show Option.bind ((liftM n.items? : Following _) s) _ = _
    rw [hitems]
    exact hread
  | _, .record fields default toRow ofRow _ _, hregular, n, htree, r, h, s => by
    rw [Shape.regular, Bool.and_eq_true, decide_eq_true_eq] at hregular
    rw [Shape.read?, htree.members?] at h
    obtain ⟨es, hes, h⟩ := Option.bind_eq_some_iff.mp h
    obtain ⟨entries, hentries, rfl⟩ := Option.map_eq_some_iff.mp hes
    obtain ⟨slots, hslots, h⟩ := Option.bind_eq_some_iff.mp h
    obtain ⟨hnodup, htrees⟩ := htree.entries hentries
    cases h
    have hall : fields.read? anchors ([] ++ Node.named entries) = some slots := hslots
    have hfold := Fields.foldlM_of_read? anchors'
      (fun hn hname hes hes' =>
        fields.putNode_of_read? anchors' hregular.1 hregular.2 hn hname hes hes' _)
      htrees hnodup fields.read?_empty hall s
    show (n.target anchors' s).bind _ = _
    rw [htree.target]
    show Option.bind ((liftM n.entries? : Following _) s) _ = _
    rw [hentries]
    show Option.bind (entries.foldlM (m := Following) _ Slots.empty s) _ = _
    rw [hfold]
    rfl

theorem Fields.putNode_of_read? (anchors' : List (Nat × Node)) : {types : List Type} →
    (fields : Fields types) → fields.names.Nodup → fields.regular = true → {es : Entries Node} →
    {slots slots' : Slots types} → {name : String} → {n : Node} → n.IsTree →
    name ∉ es.map (·.1) → fields.read? anchors es = some slots →
    fields.read? anchors (es ++ [(name, n)]) = some slots' →
    (s : Nat) → fields.putNode anchors' name n slots s = some (slots', s)
  | _, .nil, _, _, _, _, _, _, _, _, _, _, _, _ => rfl
  | _, .cons field shape rest, hnodup, hregular, es, (slot, slots), (slot', slots'), name, n, htree,
      hnew, hes, h, s => by
    obtain ⟨hfield, hnodup⟩ := List.nodup_cons.mp hnodup
    rw [Fields.regular, Bool.and_eq_true] at hregular
    rw [Fields.read?] at hes
    obtain ⟨slot₁, hslot, hes⟩ := Option.bind_eq_some_iff.mp hes
    obtain ⟨slots₁, hrest, hes⟩ := Option.bind_eq_some_iff.mp hes
    cases hes
    rw [Fields.read?, Entries.last?_append, Entries.last?_singleton] at h
    obtain ⟨slot₁', hslot', h⟩ := Option.bind_eq_some_iff.mp h
    obtain ⟨slots₁', hrest', h⟩ := Option.bind_eq_some_iff.mp h
    cases h
    rw [Fields.putNode]
    by_cases hname : name = field
    · rw [if_pos hname, Option.some_or, Option.mapM_some] at hslot'
      obtain ⟨a, ha, rfl⟩ := Option.map_eq_some_iff.mp hslot'
      rw [Fields.read?_append_skip (hname ▸ hfield), hrest] at hrest'
      cases hrest'
      -- the name is new, so nothing is in its slot and it is no second one
      rw [Entries.last?_eq_none.mpr (hname ▸ hnew)] at hslot
      cases hslot
      have hread := shape.ofNode_of_read? anchors' hregular.1 htree ha s
      rw [if_pos hname, if_neg (by simp)]
      show (shape.ofNode anchors' n s).bind _ = _
      rw [hread]
      rfl
    · rw [if_neg hname, Option.none_or, hslot] at hslot'
      cases hslot'
      have hput := rest.putNode_of_read? anchors' hnodup hregular.2 htree hnew hrest
        hrest' s
      rw [if_neg hname]
      show (rest.putNode anchors' name n slots s).bind _ = _
      rw [hput]
      rfl

end

end

/-! ## Documents -/

theorem Shape.read?_of_ofYaml {α : Type} {shape : Shape α} (hregular : shape.regular = true)
    {text : String} {root : Node} (hroot : Yaml.root? text.toList = some root) {a : α}
    (h : shape.ofYaml text = some a) : shape.read? root.anchored root = some a := by
  rw [ofYaml, hroot] at h
  obtain ⟨⟨_, s⟩, hread, rfl⟩ := Option.map_eq_some_iff.mp h
  exact shape.read?_of_ofNode hregular hread

/-- A tree says the same whatever the anchors are, and a document that is a tree is read as what it
says. -/
theorem Shape.ofYaml_of_isTree {α : Type} {shape : Shape α} (hregular : shape.regular = true)
    {text : String} {root : Node} (hroot : Yaml.root? text.toList = some root)
    (htree : root.IsTree) (anchors : List (Nat × Node)) :
    shape.ofYaml text = shape.read? anchors root := by
  rw [ofYaml, hroot]
  show Option.map _ (shape.ofNode root.anchored root (100 * root.size)) = _
  cases hread : shape.read? anchors root with
  | some a =>
    rw [shape.ofNode_of_read? root.anchored hregular htree hread]
    rfl
  | none =>
    cases hnode : shape.ofNode root.anchored root (100 * root.size) with
    | none => rfl
    | some r =>
      have hmeans := shape.read?_of_ofNode hregular hnode
      have hagain := shape.ofNode_of_read? anchors hregular htree hmeans 0
      rw [shape.read?_of_ofNode hregular hagain] at hread
      cases hread

end PlaneBridge
