import PlaneBridge.Yaml.Tokens

/-!
# YAML documents

The nodes that a text's tokens stand for.  A text holds one document at most; one without any reads
as a document whose root is empty.

An anchor names the node it stands before, and a reference stands for the node of its name.  What a
reference means is settled where it stands: the name's number is taken from the anchors before it.
Anchors are numbered in the order of their nodes, each by how many names have been given before it,
so that an anchor that takes a name again may share its number with a later one; the last node of a
number is the one that references to it stand for.
-/

namespace PlaneBridge.Yaml

structure Properties where
  anchor : Option Nat
  tag : Option (List Char)
  deriving DecidableEq, Repr

inductive Node where
  /-- A scalar, and whether it is written without quotes and outside block scalars. -/
  | scalar (properties : Properties) (text : String) (plain : Bool)
  | sequence (properties : Properties) (items : List Node)
  | mapping (properties : Properties) (entries : List (Node × Node))
  /-- The node whose anchor has this number. -/
  | reference (number : Nat)
  deriving Repr

namespace Node

def bare : Properties := ⟨none, none⟩

def empty : Node := .scalar bare "" true

mutual

/-- How many steps a walk through the node takes: one for a leaf, one each for the beginning and the
end of a collection. -/
def size : Node → Nat
  | .scalar .. | .reference _ => 1
  | .sequence _ items => 2 + itemsSize items
  | .mapping _ entries => 2 + entriesSize entries

def itemsSize : List Node → Nat
  | [] => 0
  | n :: rest => n.size + itemsSize rest

def entriesSize : List (Node × Node) → Nat
  | [] => 0
  | (k, v) :: rest => k.size + (v.size + entriesSize rest)

end

def anchoring (p : Properties) (n : Node) : List (Nat × Node) :=
  p.anchor.toList.map fun number => (number, n)

mutual

/-- The nodes that have anchors under their numbers, the last to begin first. -/
def anchored : Node → List (Nat × Node)
  | .reference _ => []
  | .scalar p text plain => anchoring p (.scalar p text plain)
  | .sequence p items => anchoredItems items ++ anchoring p (.sequence p items)
  | .mapping p entries => anchoredEntries entries ++ anchoring p (.mapping p entries)

def anchoredItems : List Node → List (Nat × Node)
  | [] => []
  | n :: rest => anchoredItems rest ++ n.anchored

def anchoredEntries : List (Node × Node) → List (Nat × Node)
  | [] => []
  | (k, v) :: rest => anchoredEntries rest ++ (v.anchored ++ k.anchored)

end
end Node

/-! ## Reading -/

abbrev Handles := List (List Char × List Char)

def standardHandles : Handles :=
  [(['!'], ['!']), (['!', '!'], "tag:yaml.org,2002:".toList)]

def tag? (handles : Handles) (handle suffix : List Char) : Option (List Char) :=
  if handle.isEmpty then some suffix else (handles.lookup handle).map (· ++ suffix)

/-- What is left of the tokens, and the number of each name that has been given. -/
structure Unread where
  tokens : List Token
  names : List (List Char × Nat)
  deriving Repr

namespace Unread

/-- The names with one more given, and its number. -/
def define (u : Unread) : Option (List Char) → Option Nat × List (List Char × Nat)
  | none => (none, u.names)
  | some name => (some u.names.length, (name, u.names.length) :: u.names.filter (·.1 ≠ name))

def isAt (u : Unread) (stops : List Token) : Bool := u.tokens.head?.any stops.contains

def pass (u : Unread) : Unread := { u with tokens := u.tokens.tail }

end Unread

/-- An anchor's name and a tag's handle and suffix, in either order, and the tokens behind them. -/
def readProperties :
    List Token → Option (List Char) × Option (List Char × List Char) × List Token
  | .anchor name :: .tag handle suffix :: rest => (some name, some (handle, suffix), rest)
  | .tag handle suffix :: .anchor name :: rest => (some name, some (handle, suffix), rest)
  | .anchor name :: rest => (some name, none, rest)
  | .tag handle suffix :: rest => (none, some (handle, suffix), rest)
  | rest => (none, none, rest)

/-- The tag of a scalar that is written out: a lone exclamation mark says nothing. -/
def scalarTag (tag : Option (List Char)) : Option (List Char) := tag.filter (· ≠ ['!'])

mutual

/-- A node.  Block collections are read where `block` says so; `flush` allows a block sequence whose
entries stand on the column of the mapping around it. -/
def readNode (handles : Handles) (block flush : Bool) : (steps : Nat) → Unread →
    Option (Node × Unread)
  | 0, _ => none
  | steps + 1, u =>
    match u.tokens with
    | .reference name :: _ => do return (.reference (← u.names.lookup name), u.pass)
    | tokens => do
      let (name, tag, rest) := readProperties tokens
      let tag ← tag.mapM fun (handle, suffix) => tag? handles handle suffix
      let (anchor, names) := u.define name
      let p : Properties := ⟨anchor, tag⟩
      let u : Unread := ⟨rest, names⟩
      let blank := if anchor.isSome ∨ tag.isSome then some (Node.scalar p "" true, u) else none
      match rest with
      | .scalar text plain :: _ => return (.scalar ⟨anchor, scalarTag tag⟩ text plain, u.pass)
      | .flowSequenceStart :: _ =>
        let (items, u) ← readFlowItems handles true steps u.pass
        return (.sequence p items, u)
      | .flowMappingStart :: _ =>
        let (entries, u) ← readFlowEntries handles true steps u.pass
        return (.mapping p entries, u)
      | .blockEntry :: _ =>
        if flush then
          let (items, u) ← readFlushItems handles steps u
          return (.sequence p items, u)
        else blank
      | .blockSequenceStart :: _ =>
        if block then
          let (items, u) ← readBlockItems handles steps u.pass
          return (.sequence p items, u)
        else blank
      | .blockMappingStart :: _ =>
        if block then
          let (entries, u) ← readBlockEntries handles steps u.pass
          return (.mapping p entries, u)
        else blank
      | _ => blank

/-- A node, empty where one of the tokens given comes next. -/
def readNodeBefore (stops : List Token) (handles : Handles) (block flush : Bool) :
    (steps : Nat) → Unread → Option (Node × Unread)
  | 0, _ => none
  | steps + 1, u =>
    if u.isAt stops then some (.empty, u) else readNode handles block flush steps u

def readBlockItems (handles : Handles) : (steps : Nat) → Unread → Option (List Node × Unread)
  | 0, _ => none
  | steps + 1, u =>
    if u.isAt [.blockEntry] then do
      let (item, u) ← readNodeBefore [.blockEntry, .blockEnd] handles true false steps u.pass
      let (items, u) ← readBlockItems handles steps u
      return (item :: items, u)
    else if u.isAt [.blockEnd] then some ([], u.pass)
    else none

/-- The items of a block sequence that ends where its entries do. -/
def readFlushItems (handles : Handles) : (steps : Nat) → Unread → Option (List Node × Unread)
  | 0, _ => none
  | steps + 1, u =>
    if u.isAt [.blockEntry] then do
      let (item, u) ←
        readNodeBefore [.blockEntry, .key, .value, .blockEnd] handles true false steps u.pass
      let (items, u) ← readFlushItems handles steps u
      return (item :: items, u)
    else some ([], u)

def readBlockEntries (handles : Handles) : (steps : Nat) → Unread →
    Option (List (Node × Node) × Unread)
  | 0, _ => none
  | steps + 1, u =>
    let stops := [.key, .value, .blockEnd]
    if u.isAt [.key] then do
      let (key, u) ← readNodeBefore stops handles true true steps u.pass
      let (value, u) ←
        if u.isAt [.value] then readNodeBefore stops handles true true steps u.pass
        else some (.empty, u)
      let (entries, u) ← readBlockEntries handles steps u
      return ((key, value) :: entries, u)
    else if u.isAt [.blockEnd] then some ([], u.pass)
    else none

/-- The items of a flow sequence and its end.  A pair stands for a mapping of one entry.  The token
behind a question mark without a key is passed over with it. -/
def readFlowItems (handles : Handles) (first : Bool) : (steps : Nat) → Unread →
    Option (List Node × Unread)
  | 0, _ => none
  | steps + 1, u =>
    if u.isAt [.flowSequenceEnd] then some ([], u.pass)
    else if !first && !u.isAt [.flowEntry] then none
    else
      let u := if first then u else u.pass
      if u.isAt [.key] then do
        let u := u.pass
        let (key, u) ←
          if u.isAt [.value, .flowEntry, .flowSequenceEnd] then some (.empty, u.pass)
          else readNode handles false false steps u
        let (value, u) ←
          if u.isAt [.value] then
            readNodeBefore [.flowEntry, .flowSequenceEnd] handles false false steps u.pass
          else some (.empty, u)
        let (items, u) ← readFlowItems handles false steps u
        return (.mapping Node.bare [(key, value)] :: items, u)
      else if u.isAt [.flowSequenceEnd] then some ([], u.pass)
      else do
        let (item, u) ← readNode handles false false steps u
        let (items, u) ← readFlowItems handles false steps u
        return (item :: items, u)

def readFlowEntries (handles : Handles) (first : Bool) : (steps : Nat) → Unread →
    Option (List (Node × Node) × Unread)
  | 0, _ => none
  | steps + 1, u =>
    if u.isAt [.flowMappingEnd] then some ([], u.pass)
    else if !first && !u.isAt [.flowEntry] then none
    else
      let u := if first then u else u.pass
      if u.isAt [.key] then do
        let (key, u) ←
          readNodeBefore [.value, .flowEntry, .flowMappingEnd] handles false false steps u.pass
        let (value, u) ←
          if u.isAt [.value] then
            readNodeBefore [.flowEntry, .flowMappingEnd] handles false false steps u.pass
          else some (.empty, u)
        let (entries, u) ← readFlowEntries handles false steps u
        return ((key, value) :: entries, u)
      else if u.isAt [.flowMappingEnd] then some ([], u.pass)
      else do
        let (key, u) ← readNode handles false false steps u
        let (entries, u) ← readFlowEntries handles false steps u
        return ((key, .empty) :: entries, u)

end

/-! ## Documents -/

structure Directives where
  hasVersion : Bool
  handles : Handles

/-- The directives at the beginning of the tokens, and the tokens behind them.  The version must be
1.1 or 1.2, and nothing may be said twice. -/
def readDirectives (d : Directives) : List Token → Option (Directives × List Token)
  | .version major minor :: rest =>
    if d.hasVersion ∨ major ≠ 1 ∨ (minor ≠ 1 ∧ minor ≠ 2) then none
    else readDirectives { d with hasVersion := true } rest
  | .tagHandle handle uri :: rest =>
    if (d.handles.lookup handle).isSome then none
    else readDirectives { d with handles := d.handles ++ [(handle, uri)] } rest
  | rest => some (d, rest)

/-- The root of the document that tokens begin with. -/
def readRoot (tokens : List Token) : Option (Node × List Token) := do
  let steps := 4 * tokens.length + 4
  let (d, rest) ← readDirectives ⟨false, []⟩ tokens
  let handles := d.handles ++ standardHandles
  match rest with
  | .documentStart :: rest =>
    match rest with
    | [] | .version .. :: _ | .tagHandle .. :: _ | .documentStart :: _ | .documentEnd :: _ =>
      return (.empty, rest)
    | _ =>
      let (root, u) ← readNode handles true false steps ⟨rest, []⟩
      return (root, u.tokens)
  | rest =>
    if rest.length < tokens.length then none
    else if rest.isEmpty then return (.empty, [])
    else
      let (root, u) ← readNode handles true false steps ⟨rest, []⟩
      return (root, u.tokens)

/-- The root of the only document of a text; nothing where the text is no YAML or has a second. -/
def root? (text : List Char) : Option Node := do
  let (root, rest) ← readRoot (← tokens? text)
  if rest.all (· = .documentEnd) then return root else none

end PlaneBridge.Yaml
