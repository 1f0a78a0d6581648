import PlaneBridge.Json.Printer
import PlaneBridge.Proofs.Json.Reader
import PlaneBridge.Proofs.Json.Text

/-!
# Printed texts read back

Both ways of printing a value spell the node that the value itself is laid out as, provided its
binary64 numbers read back.  So by `Value.ofText_printed` a printed text is laid out as that node,
and whoever decodes it decodes the value.
-/

namespace PlaneBridge.Json

mutual

/-- The binary64 numbers in a value. -/
def Value.floats : Value → List Binary64
  | .num (.float x) => [x]
  | .arr items => itemFloats items
  | .obj members => memberFloats members
  | _ => []

def itemFloats : List Value → List Binary64
  | [] => []
  | v :: rest => v.floats ++ itemFloats rest

def memberFloats : List (String × Value) → List Binary64
  | [] => []
  | (_, v) :: rest => v.floats ++ memberFloats rest

end

theorem itemFloats_eq (items : List Value) : itemFloats items = items.flatMap Value.floats := by
  induction items with
  | nil => rfl
  | cons v rest ih => rw [itemFloats, ih, List.flatMap_cons]

theorem memberFloats_eq (members : List (String × Value)) :
    memberFloats members = members.flatMap (·.2.floats) := by
  induction members with
  | nil => rfl
  | cons m rest ih => rw [memberFloats, ih, List.flatMap_cons]

/-- The text of each number is a numeral that reads as this number. -/
def FloatsReadBack (xs : List Binary64) : Prop := ∀ x ∈ xs, (Number.float x).ReadsBack

theorem FloatsReadBack.append {xs ys : List Binary64} :
    FloatsReadBack (xs ++ ys) ↔ FloatsReadBack xs ∧ FloatsReadBack ys :=
  List.forall_mem_append

theorem scan_quote (s : String) (rest : List Char) :
    Text.scan [] (s.toList.flatMap Text.escape ++ ['"'] ++ rest) = .found (some s) rest := by
  rw [List.append_assoc]
  exact (Text.scan_quoted s.toList rest).trans (by rw [String.ofList_toList])

theorem quote_append (s : String) (t : List Char) :
    Text.quote s.toList ++ t = '"' :: (s.toList.flatMap Text.escape ++ ['"'] ++ t) := rfl

theorem spells_str (s : String) : Spells (.str (some s)) (Text.quote s.toList) :=
  .str (scan_quote s)

theorem spells_num {x : Number} (h : x.ReadsBack) : Spells (.num (some x)) x.text := by
  obtain ⟨n, hscan, hvalue⟩ := h
  rw [← hvalue]
  exact .num hscan

theorem Blanks.nil : Blanks [] := fun _ h => absurd h List.not_mem_nil

mutual

theorem Value.spells_compact : (v : Value) → FloatsReadBack v.floats → Spells v.node v.compact
  | .null, _ => .null
  | .bool true, _ => .yes
  | .bool false, _ => .no
  | .num (.int n), _ => spells_num (Number.readsBack_int n)
  | .num (.float x), h => spells_num (h x List.mem_cons_self)
  | .str s, _ => spells_str s
  | .arr [], _ => .noItems Blanks.nil
  | .arr (v :: rest), h => .arr (spellsItems_compact (v :: rest) (List.cons_ne_nil v rest) h)
  | .obj [], _ => .noMembers Blanks.nil
  | .obj (m :: rest), h => .obj (spellsMembers_compact (m :: rest) (List.cons_ne_nil m rest) h)

theorem spellsItems_compact : (items : List Value) → items ≠ [] →
    FloatsReadBack (itemFloats items) → SpellsItems (itemNodes items) (compactItems items)
  | [v], _, h => .last (v.spells_compact (FloatsReadBack.append.mp h).1) Blanks.nil
  | v :: w :: rest, _, h =>
    .cons (v.spells_compact (FloatsReadBack.append.mp h).1) Blanks.nil
      (spellsItems_compact (w :: rest) (List.cons_ne_nil w rest) (FloatsReadBack.append.mp h).2)

theorem spellsMembers_compact : (members : List (String × Value)) → members ≠ [] →
    FloatsReadBack (memberFloats members) →
    SpellsMembers (memberNodes members) (compactMembers members)
  | [(name, v)], _, h => by
    have hv := v.spells_compact (FloatsReadBack.append.mp h).1
    show SpellsMembers _ (Text.quote name.toList ++ ':' :: v.compact ++ ['}'])
    rw [List.append_assoc, quote_append]
    exact .last (scan_quote name) Blanks.nil hv Blanks.nil
  | (name, v) :: m :: rest, _, h => by
    have hv := v.spells_compact (FloatsReadBack.append.mp h).1
    have hrest := spellsMembers_compact (m :: rest) (List.cons_ne_nil m rest)
      (FloatsReadBack.append.mp h).2
    show SpellsMembers _
      (Text.quote name.toList ++ ':' :: v.compact ++ ',' :: compactMembers (m :: rest))
    rw [List.append_assoc, quote_append]
    exact .cons (scan_quote name) Blanks.nil hv Blanks.nil hrest

end

/-! ## Over lines -/

theorem blanks_newLine (depth : Nat) : Blanks (newLine depth) := by
  intro c hc
  rcases List.mem_cons.mp hc with rfl | hc
  · decide
  · rw [List.eq_of_mem_replicate hc]
    decide

theorem Spells.blanks {n : Node} {b t : List Char} (hb : Blanks b) (h : Spells n t) :
    Spells n (b ++ t) := by
  induction b with
  | nil => exact h
  | cons c b ih =>
    exact .blank (hb c List.mem_cons_self) (ih fun d hd => hb d (List.mem_cons_of_mem c hd))

theorem SpellsMembers.blanks {members : List (Option String × Node)} {b t : List Char}
    (hb : Blanks b) (h : SpellsMembers members t) : SpellsMembers members (b ++ t) := by
  induction b with
  | nil => exact h
  | cons c b ih =>
    exact .blank (hb c List.mem_cons_self) (ih fun d hd => hb d (List.mem_cons_of_mem c hd))

mutual

theorem Value.spells_pretty (depth : Nat) :
    (v : Value) → FloatsReadBack v.floats → Spells v.node (v.pretty depth)
  | .null, h => Value.spells_compact .null h
  | .bool b, h => Value.spells_compact (.bool b) h
  | .num x, h => Value.spells_compact (.num x) h
  | .str s, _ => spells_str s
  | .arr [], _ => .noItems Blanks.nil
  | .arr (v :: rest), h => by
    have hv := v.spells_pretty (depth + 1) (FloatsReadBack.append.mp h).1
    have hitems := spellsItems_pretty (depth + 1) rest (hv.blanks (blanks_newLine (depth + 1)))
      (blanks_newLine depth) (FloatsReadBack.append.mp h).2
    simp only [Value.pretty, List.cons_append, List.append_assoc] at hitems ⊢
    exact .arr hitems
  | .obj [], _ => .noMembers Blanks.nil
  | .obj ((name, v) :: rest), h => by
    have hv := v.spells_pretty (depth + 1) (FloatsReadBack.append.mp h).1
    have hmembers := spellsMembers_pretty (depth + 1) rest name hv (blanks_newLine depth)
      (FloatsReadBack.append.mp h).2
    have hline := hmembers.blanks (blanks_newLine (depth + 1))
    simp only [Value.pretty, List.cons_append, List.append_assoc] at hline ⊢
    exact .obj hline

/-- The elements from one that has been spelled already to the end. -/
theorem spellsItems_pretty (depth : Nat) : (rest : List Value) → {v : Value} → {t b : List Char} →
    Spells v.node t → Blanks b → FloatsReadBack (itemFloats rest) →
    SpellsItems (itemNodes (v :: rest)) (t ++ (prettyItems depth rest ++ (b ++ [']'])))
  | [], _, _, _, hv, hb, _ => .last hv hb
  | w :: rest, _, _, _, hv, hb, h => by
    have hw := w.spells_pretty depth (FloatsReadBack.append.mp h).1
    have hrest := spellsItems_pretty depth rest (hw.blanks (blanks_newLine depth)) hb
      (FloatsReadBack.append.mp h).2
    simp only [prettyItems, List.cons_append, List.append_assoc] at hrest ⊢
    exact .cons hv Blanks.nil hrest

/-- The members from one whose value has been spelled already to the end. -/
theorem spellsMembers_pretty (depth : Nat) : (rest : List (String × Value)) → (name : String) →
    {v : Value} → {t b : List Char} → Spells v.node t → Blanks b →
    FloatsReadBack (memberFloats rest) →
    SpellsMembers (memberNodes ((name, v) :: rest))
      (Text.quote name.toList ++ ':' :: ' ' :: (t ++ (prettyMembers depth rest ++ (b ++ ['}']))))
  | [], name, _, _, _, hv, hb, _ => by
    have hspace : isBlank ' ' = true := by decide
    exact .last (scan_quote name) Blanks.nil (.blank hspace hv) hb
  | (name', w) :: rest, name, _, _, _, hv, hb, h => by
    have hspace : isBlank ' ' = true := by decide
    have hw := w.spells_pretty depth (FloatsReadBack.append.mp h).1
    have hrest := spellsMembers_pretty depth rest name' hw hb (FloatsReadBack.append.mp h).2
    have hline := hrest.blanks (blanks_newLine depth)
    simp only [prettyMembers, List.cons_append, List.append_assoc] at hline ⊢
    exact .cons (scan_quote name) Blanks.nil (.blank hspace hv) Blanks.nil hline

end

/-- The document that a value is printed as, on one line and over lines. -/
theorem Value.ofText_printed {v : Value} (h : FloatsReadBack v.floats) {text : String}
    (htext : text = v.toText ∨ text = v.toPrettyText) :
    Document.ofText text.toList = ⟨v.node, false⟩ := by
  rcases htext with rfl | rfl
  · rw [Value.toText, String.toList_ofList, ← List.append_nil v.compact]
    exact Document.ofText_of_spells (v.spells_compact h) Blanks.nil
  · rw [Value.toPrettyText, String.toList_ofList, ← List.append_nil (v.pretty 0)]
    exact Document.ofText_of_spells (v.spells_pretty 0 h) Blanks.nil

end PlaneBridge.Json
