import PlaneBridge.Shape.Yaml
import PlaneBridge.Proofs.Json.Path

/-!
# Paths into documents

Where a path leads in a document, references being followed without end.  Of entries of one name the
last one counts, as it does where a document is read.

A document without references whose mappings have different texts for keys is a tree.  In a tree a
path leads to the same node whatever the anchors are, and changing what it leads to is changing one
entry.
-/

namespace PlaneBridge.Yaml.Node

open Json (Step Path)

section

variable (anchors : List (Nat × Node))

/-- The node itself or the one that it stands for. -/
def resolve : Node → Option Node
  | .reference number => anchors.lookup number
  | n => some n

def textIn (n : Node) : Option String := (n.resolve anchors).bind text?

/-- The values of a mapping under the texts of their keys. -/
def members? (n : Node) : Option (Entries Node) := do
  (← (← n.resolve anchors).entries?).mapM fun e => do return (← e.1.textIn anchors, e.2)

def step? (n : Node) : Step → Option Node
  | .member name => do (← n.members? anchors).last? name
  | .item i => do (← (← n.resolve anchors).items?)[i]?

/-- What a path leads to. -/
def at? : Node → Path → Option Node
  | n, [] => some n
  | n, s :: p => (n.step? anchors s).bind (·.at? p)

end

/-- The values under keys that are texts. -/
def named (entries : List (Node × Node)) : Entries Node :=
  entries.filterMap fun (k, v) => k.text?.map (·, v)

mutual

/-- There are no references, and the keys of every mapping are different texts. -/
def IsTree : Node → Prop
  | .scalar .. => True
  | .sequence _ items => ItemsTree items
  | .mapping _ entries => ((named entries).map (·.1)).Nodup ∧ EntriesTree entries
  | .reference _ => False

def ItemsTree : List Node → Prop
  | [] => True
  | n :: rest => n.IsTree ∧ ItemsTree rest

def EntriesTree : List (Node × Node) → Prop
  | [] => True
  | (k, v) :: rest => k.text?.isSome ∧ v.IsTree ∧ EntriesTree rest

end

/-! ## Nodes are told apart -/

mutual

/-- Whether the nodes are the same. -/
def same : Node → Node → Bool
  | .scalar p text plain, .scalar p' text' plain' => p = p' && text = text' && plain = plain'
  | .sequence p items, .sequence p' items' => p = p' && sameItems items items'
  | .mapping p entries, .mapping p' entries' => p = p' && sameEntries entries entries'
  | .reference number, .reference number' => number = number'
  | _, _ => false

def sameItems : List Node → List Node → Bool
  | [], [] => true
  | m :: ms, n :: ns => m.same n && sameItems ms ns
  | _, _ => false

def sameEntries : List (Node × Node) → List (Node × Node) → Bool
  | [], [] => true
  | (j, m) :: ms, (k, n) :: ns => j.same k && m.same n && sameEntries ms ns
  | _, _ => false

end

mutual

theorem same_iff : (m n : Node) → (m.same n = true ↔ m = n)
  | .scalar .., n => by cases n <;> simp [same, and_assoc]
  | .sequence _ items, n => by cases n <;> simp [same, sameItems_iff items]
  | .mapping _ entries, n => by cases n <;> simp [same, sameEntries_iff entries]
  | .reference _, n => by cases n <;> simp [same]

theorem sameItems_iff : (ms ns : List Node) → (sameItems ms ns = true ↔ ms = ns)
  | [], ns => by cases ns <;> simp [sameItems]
  | m :: ms, ns => by cases ns <;> simp [sameItems, same_iff m, sameItems_iff ms]

theorem sameEntries_iff : (ms ns : List (Node × Node)) → (sameEntries ms ns = true ↔ ms = ns)
  | [], ns => by cases ns <;> simp [sameEntries]
  | (j, m) :: ms, ns => by
    cases ns <;> simp [sameEntries, same_iff j, same_iff m, sameEntries_iff ms, Prod.ext_iff]

end

instance : DecidableEq Node := fun m n => decidable_of_iff _ (same_iff m n)

/-! ## Changing a node -/

/-- The node with what a step leads to changed. -/
def modifyStep (f : Node → Node) : Node → Step → Node
  | .mapping p entries, .member name =>
    .mapping p (entries.map fun e => if e.1.text? = some name then (e.1, f e.2) else e)
  | .sequence p items, .item i => .sequence p (items.modify i f)
  | n, _ => n

/-- The node with what a path leads to changed. -/
def modify (f : Node → Node) : Node → Path → Node
  | n, [] => f n
  | n, s :: p => n.modifyStep (·.modify f p) s

/-! ## Trees -/

variable {anchors : List (Nat × Node)}

theorem at?_append (n : Node) (p q : Path) :
    n.at? anchors (p ++ q) = (n.at? anchors p).bind (·.at? anchors q) := by
  induction p generalizing n with
  | nil => rfl
  | cons s p ih =>
    rw [List.cons_append, Node.at?, Node.at?, Option.bind_assoc]
    exact congrArg _ (funext fun m => ih m)

theorem step?_item (n : Node) (i : Nat) :
    n.step? anchors (.item i) = ((n.resolve anchors).bind items?).bind (·[i]?) := by
  rw [step?, Option.bind_assoc]
  rfl

theorem IsTree.resolve {n : Node} (h : n.IsTree) : n.resolve anchors = some n := by
  cases n with
  | reference => cases h
  | _ => rfl

theorem textIn_of_text? {k : Node} {name : String} (h : k.text? = some name) :
    k.textIn anchors = some name := by
  cases k with
  | scalar => exact h
  | _ => cases h

theorem itemsTree_iff {items : List Node} : ItemsTree items ↔ ∀ n ∈ items, n.IsTree := by
  induction items with
  | nil => simp [ItemsTree]
  | cons n rest ih => rw [ItemsTree, ih, List.forall_mem_cons]

theorem named_cons {k v : Node} {name : String} (h : k.text? = some name)
    (rest : List (Node × Node)) : named ((k, v) :: rest) = (name, v) :: named rest := by
  rw [named, List.filterMap_cons]
  simp only [h, Option.map_some]
  rfl

theorem EntriesTree.mapM {entries : List (Node × Node)} (h : EntriesTree entries) :
    entries.mapM (fun e => do return (← e.1.textIn anchors, e.2)) = some (named entries) := by
  induction entries with
  | nil => rfl
  | cons e rest ih =>
    obtain ⟨k, v⟩ := e
    obtain ⟨hk, _, hrest⟩ := h
    obtain ⟨name, hname⟩ := Option.isSome_iff_exists.mp hk
    rw [List.mapM_cons, ih hrest, named_cons hname, textIn_of_text? hname]
    rfl

theorem EntriesTree.isTree {entries : List (Node × Node)} (h : EntriesTree entries) {e : String × Node}
    (he : e ∈ named entries) : e.2.IsTree := by
  induction entries with
  | nil => cases he
  | cons e' rest ih =>
    obtain ⟨k, v⟩ := e'
    obtain ⟨hk, hv, hrest⟩ := h
    obtain ⟨name, hname⟩ := Option.isSome_iff_exists.mp hk
    rw [named_cons hname] at he
    rcases List.mem_cons.mp he with rfl | he
    · exact hv
    · exact ih hrest he

theorem eq_nil_of_entries? {p : Properties} {text : String} {plain : Bool}
    {entries : List (Node × Node)} (h : (scalar p text plain).entries? = some entries) :
    entries = [] := by
  rw [entries?.eq_def] at h
  split at h
  · rename_i heq
    cases heq
  · exact (Option.some.inj h).symm
  · cases h

theorem eq_nil_of_items? {p : Properties} {text : String} {plain : Bool} {items : List Node}
    (h : (scalar p text plain).items? = some items) : items = [] := by
  rw [items?.eq_def] at h
  split at h
  · rename_i heq
    cases heq
  · exact (Option.some.inj h).symm
  · cases h

theorem IsTree.entries {n : Node} (h : n.IsTree) {entries : List (Node × Node)}
    (he : n.entries? = some entries) :
    ((named entries).map (·.1)).Nodup ∧ EntriesTree entries := by
  cases n with
  | scalar =>
    rw [eq_nil_of_entries? he]
    exact ⟨.nil, trivial⟩
  | mapping p es => cases he; exact h
  | _ => cases he

theorem IsTree.members? {n : Node} (h : n.IsTree) :
    n.members? anchors = n.entries?.map named := by
  rw [Node.members?, h.resolve]
  show n.entries?.bind _ = _
  cases he : n.entries? with
  | none => rfl
  | some entries => exact (h.entries he).2.mapM

theorem IsTree.nodup_members? {n : Node} (h : n.IsTree) {es : Entries Node}
    (hes : n.members? anchors = some es) : (es.map (·.1)).Nodup := by
  rw [h.members?] at hes
  obtain ⟨entries, hentries, rfl⟩ := Option.map_eq_some_iff.mp hes
  exact (h.entries hentries).1

theorem IsTree.items {n : Node} (h : n.IsTree) {items : List Node} (hi : n.items? = some items) :
    ItemsTree items := by
  cases n with
  | scalar =>
    rw [eq_nil_of_items? hi]
    trivial
  | sequence p is => cases hi; exact h
  | _ => cases hi

theorem IsTree.step?_member {n : Node} (h : n.IsTree) (name : String) :
    n.step? anchors (.member name) = n.entries?.bind fun entries => (named entries).last? name := by
  rw [Node.step?, h.members?]
  exact Option.bind_map

theorem IsTree.step?_item {n : Node} (h : n.IsTree) (i : Nat) :
    n.step? anchors (.item i) = n.items?.bind (·[i]?) := by
  rw [Node.step?_item, h.resolve]
  rfl

theorem IsTree.step? {n : Node} (h : n.IsTree) (anchors' : List (Nat × Node)) (s : Step) :
    n.step? anchors s = n.step? anchors' s := by
  cases s with
  | member name => rw [h.step?_member, h.step?_member]
  | item i => rw [h.step?_item, h.step?_item]

theorem IsTree.below {n m : Node} (h : n.IsTree) {s : Step} (hm : n.step? anchors s = some m) :
    m.IsTree := by
  cases s with
  | member name =>
    rw [h.step?_member] at hm
    obtain ⟨entries, hentries, hm⟩ := Option.bind_eq_some_iff.mp hm
    exact (h.entries hentries).2.isTree (Entries.mem_of_last? hm)
  | item i =>
    rw [h.step?_item] at hm
    obtain ⟨items, hitems, hm⟩ := Option.bind_eq_some_iff.mp hm
    exact itemsTree_iff.mp (h.items hitems) m (List.mem_of_getElem? hm)

theorem IsTree.within {n m : Node} (h : n.IsTree) {p : Path} (hm : n.at? anchors p = some m) :
    m.IsTree := by
  induction p generalizing n with
  | nil => exact Option.some.inj hm ▸ h
  | cons s p ih =>
    obtain ⟨n', hn', hm⟩ := Option.bind_eq_some_iff.mp hm
    exact ih (h.below hn') hm

theorem IsTree.at? {n : Node} (h : n.IsTree) (anchors' : List (Nat × Node)) (p : Path) :
    n.at? anchors p = n.at? anchors' p := by
  induction p generalizing n with
  | nil => rfl
  | cons s p ih =>
    rw [Node.at?, Node.at?, h.step? anchors' s]
    cases hm : n.step? anchors' s with
    | none => rfl
    | some m => exact ih (h.below hm)

/-! ## Changing a tree -/

theorem named_modify (name : String) (f : Node → Node) (entries : List (Node × Node)) :
    named (entries.map fun e => if e.1.text? = some name then (e.1, f e.2) else e) =
      (named entries).modify name f := by
  induction entries with
  | nil => rfl
  | cons e rest ih =>
    obtain ⟨k, v⟩ := e
    rw [List.map_cons]
    cases hk : k.text? with
    | none =>
      have hskip : ∀ es, named ((k, v) :: es) = named es := by
        intro es
        rw [named, List.filterMap_cons]
        simp only [hk, Option.map_none]
        rfl
      rw [if_neg (by simp), hskip, hskip, ih]
    | some n =>
      rw [named_cons hk, Entries.modify_cons, ← ih]
      by_cases hn : n = name
      · rw [if_pos (congrArg some hn), if_pos hn, named_cons hk]
      · rw [if_neg fun heq => hn (Option.some.inj heq), if_neg hn, named_cons hk]

theorem EntriesTree.modify {f : Node → Node} (hf : ∀ n, n.IsTree → (f n).IsTree) (name : String)
    {entries : List (Node × Node)} (h : EntriesTree entries) :
    EntriesTree (entries.map fun e => if e.1.text? = some name then (e.1, f e.2) else e) := by
  induction entries with
  | nil => trivial
  | cons e rest ih =>
    obtain ⟨k, v⟩ := e
    obtain ⟨hk, hv, hrest⟩ := h
    rw [List.map_cons]
    split
    · exact ⟨hk, hf v hv, ih hrest⟩
    · exact ⟨hk, hv, ih hrest⟩

theorem IsTree.modifyStep {f : Node → Node} (hf : ∀ n, n.IsTree → (f n).IsTree) {n : Node}
    (h : n.IsTree) (s : Step) : (n.modifyStep f s).IsTree := by
  cases n with
  | mapping p entries =>
    cases s with
    | item i => exact h
    | member name =>
      refine ⟨?_, h.2.modify hf name⟩
      rw [named_modify, Entries.names_modify]
      exact h.1
  | sequence p items =>
    cases s with
    | member name => exact h
    | item i =>
      refine itemsTree_iff.mpr fun m hm => ?_
      obtain ⟨j, hj⟩ := List.mem_iff_getElem?.mp hm
      rw [List.getElem?_modify] at hj
      obtain ⟨u, hu, rfl⟩ := Option.map_eq_some_iff.mp hj
      have hu := itemsTree_iff.mp h u (List.mem_of_getElem? hu)
      split
      · exact hf u hu
      · exact hu
  | _ => cases s <;> exact h

theorem IsTree.modify {f : Node → Node} (hf : ∀ n, n.IsTree → (f n).IsTree) {n : Node}
    (h : n.IsTree) (p : Path) : (n.modify f p).IsTree := by
  induction p generalizing n with
  | nil => exact hf n h
  | cons s p ih => exact h.modifyStep (fun m hm => ih hm) s

theorem IsTree.members?_modifyStep {f : Node → Node} (hf : ∀ n, n.IsTree → (f n).IsTree) {n : Node}
    (h : n.IsTree) (name : String) :
    (n.modifyStep f (.member name)).members? anchors =
      (n.members? anchors).map (Entries.modify name f) := by
  rw [(h.modifyStep hf (.member name)).members?, h.members?, Option.map_map]
  cases n with
  | mapping p entries => exact congrArg some (named_modify name f entries)
  | scalar p text plain =>
    show (scalar p text plain).entries?.map named = _
    cases he : (scalar p text plain).entries? with
    | none => rfl
    | some entries =>
      rw [eq_nil_of_entries? he]
      rfl
  | _ => rfl

theorem IsTree.items?_modifyStep {f : Node → Node} {n : Node} (h : n.IsTree) (i : Nat) :
    ((n.modifyStep f (.item i)).resolve anchors).bind items? =
      ((n.resolve anchors).bind items?).map (·.modify i f) := by
  cases n with
  | sequence p items => rfl
  | scalar p text plain =>
    show (scalar p text plain).items? = (scalar p text plain).items?.map _
    cases hi : (scalar p text plain).items? with
    | none => rfl
    | some items =>
      rw [eq_nil_of_items? hi, Option.map_some, List.modify_nil]
  | mapping => rfl
  | reference => cases h

end PlaneBridge.Yaml.Node
