import PlaneBridge.Proofs.Json.Number

/-!
# Texts that spell a value

`Spells` is the grammar of JSON with the node that each text stands for: blanks between all tokens,
any spelling of strings and numerals, members as they come.  What a string or a numeral spells is
left to its scanner.

The main statement is `Document.ofText_of_spells`: a text of the grammar is laid out as its node,
with no cut in it and nothing behind it.  The reader counts its steps down, so the statements about
its parts ask for as many steps as the whole text has, twice the characters.
-/

namespace PlaneBridge.Json

/-- Nothing but blanks. -/
def Blanks (text : List Char) : Prop := ∀ c ∈ text, isBlank c = true

mutual

/-- The text spells the node. -/
inductive Spells : Node → List Char → Prop
  | blank {c : Char} {n : Node} {t : List Char} (hc : isBlank c = true) (h : Spells n t) :
      Spells n (c :: t)
  | null : Spells .null ['n', 'u', 'l', 'l']
  | yes : Spells (.bool true) ['t', 'r', 'u', 'e']
  | no : Spells (.bool false) ['f', 'a', 'l', 's', 'e']
  | num {n : Numeral} {t : List Char} (h : Numeral.scan t = .found n []) : Spells (.num n.value?) t
  | str {s : Option String} {t : List Char}
      (h : ∀ rest, Text.scan [] (t ++ rest) = .found s rest) : Spells (.str s) ('"' :: t)
  | noItems {b : List Char} (hb : Blanks b) : Spells (.arr [] .closed) ('[' :: (b ++ [']']))
  | arr {items : List Node} {t : List Char} (h : SpellsItems items t) :
      Spells (.arr items .closed) ('[' :: t)
  | noMembers {b : List Char} (hb : Blanks b) : Spells (.obj [] .closed) ('{' :: (b ++ ['}']))
  | obj {members : List (Option String × Node)} {t : List Char} (h : SpellsMembers members t) :
      Spells (.obj members .closed) ('{' :: t)

/-- The text spells elements, one at least, and the bracket behind them. -/
inductive SpellsItems : List Node → List Char → Prop
  | last {n : Node} {t b : List Char} (h : Spells n t) (hb : Blanks b) :
      SpellsItems [n] (t ++ (b ++ [']']))
  | cons {n : Node} {t b : List Char} {items : List Node} {u : List Char} (h : Spells n t)
      (hb : Blanks b) (hrest : SpellsItems items u) : SpellsItems (n :: items) (t ++ (b ++ ',' :: u))

/-- The text spells members, one at least, and the brace behind them. -/
inductive SpellsMembers : List (Option String × Node) → List Char → Prop
  | blank {c : Char} {members : List (Option String × Node)} {t : List Char}
      (hc : isBlank c = true) (h : SpellsMembers members t) : SpellsMembers members (c :: t)
  | last {name : Option String} {n : Node} {s b t d : List Char}
      (hname : ∀ rest, Text.scan [] (s ++ rest) = .found name rest) (hb : Blanks b)
      (h : Spells n t) (hd : Blanks d) :
      SpellsMembers [(name, n)] ('"' :: (s ++ (b ++ ':' :: (t ++ (d ++ ['}'])))))
  | cons {name : Option String} {n : Node} {s b t d : List Char}
      {members : List (Option String × Node)} {u : List Char}
      (hname : ∀ rest, Text.scan [] (s ++ rest) = .found name rest) (hb : Blanks b)
      (h : Spells n t) (hd : Blanks d) (hrest : SpellsMembers members u) :
      SpellsMembers ((name, n) :: members) ('"' :: (s ++ (b ++ ':' :: (t ++ (d ++ ',' :: u)))))

end

/-! ## Blanks -/

theorem skipBlanks_cons {c : Char} (hc : isBlank c = true) (t : List Char) :
    skipBlanks (c :: t) = skipBlanks t := by
  rw [skipBlanks, List.dropWhile_cons, if_pos hc]
  rfl

theorem skipBlanks_append {b : List Char} (hb : Blanks b) (t : List Char) :
    skipBlanks (b ++ t) = skipBlanks t := by
  induction b with
  | nil => rfl
  | cons c b ih =>
    rw [List.cons_append, skipBlanks_cons (hb c List.mem_cons_self)]
    exact ih fun d hd => hb d (List.mem_cons_of_mem c hd)

theorem skipBlanks_of_not {c : Char} (hc : isBlank c = false) (t : List Char) :
    skipBlanks (c :: t) = c :: t := by
  rw [skipBlanks, List.dropWhile_cons, hc]
  rfl

theorem not_isBlank_of_numeral {c : Char} (h : c = '-' ∨ c.isDigit = true) :
    isBlank c = false := by
  cases hc : isBlank c with
  | false => rfl
  | true =>
    simp only [isBlank, Bool.or_eq_true, decide_eq_true_eq] at hc
    rcases hc with ((rfl | rfl) | rfl) | rfl <;> exact absurd h (by decide)

theorem Ends.of_blanks {b t : List Char} (hb : Blanks b) (h : Ends t) : Ends (b ++ t) := by
  cases b with
  | nil => exact h
  | cons d b =>
    refine Ends.cons ?_
    have hd := hb d List.mem_cons_self
    simp only [isBlank, Bool.or_eq_true, decide_eq_true_eq] at hd
    rcases hd with ((rfl | rfl) | rfl) | rfl <;> decide

theorem skipBlanks_skipBlanks (t : List Char) : skipBlanks (skipBlanks t) = skipBlanks t := by
  induction t with
  | nil => rfl
  | cons c t ih =>
    cases hc : isBlank c with
    | true => rw [skipBlanks_cons hc, ih]
    | false => rw [skipBlanks_of_not hc, skipBlanks_of_not hc]

/-! ## What a spelled node begins with -/

theorem Spells.head {n : Node} {t : List Char} : Spells n t → ∀ rest,
    ∃ c u, skipBlanks (t ++ rest) = c :: u ∧ c ≠ ']'
  | .blank hc h, rest => by
    rw [List.cons_append, skipBlanks_cons hc]
    exact h.head rest
  | .null, _ => ⟨'n', _, skipBlanks_of_not (by decide) _, by decide⟩
  | .yes, _ => ⟨'t', _, skipBlanks_of_not (by decide) _, by decide⟩
  | .no, _ => ⟨'f', _, skipBlanks_of_not (by decide) _, by decide⟩
  | .str _, _ => ⟨'"', _, skipBlanks_of_not (by decide) _, by decide⟩
  | .noItems _, _ | .arr _, _ => ⟨'[', _, skipBlanks_of_not (by decide) _, by decide⟩
  | .noMembers _, _ | .obj _, _ => ⟨'{', _, skipBlanks_of_not (by decide) _, by decide⟩
  | .num h, rest => by
    obtain ⟨c, u, rfl, hc⟩ := Numeral.head_of_scan h
    refine ⟨c, u ++ rest, skipBlanks_of_not (not_isBlank_of_numeral hc) _, ?_⟩
    rintro rfl
    rcases hc with hc | hc <;> exact absurd hc (by decide)

theorem SpellsItems.head {items : List Node} {t : List Char} : SpellsItems items t → ∀ rest,
    ∃ c u, skipBlanks (t ++ rest) = c :: u ∧ c ≠ ']'
  | .last h _, rest | .cons h _ _, rest => by
    rw [List.append_assoc]
    exact h.head _

theorem SpellsMembers.head {members : List (Option String × Node)} {t : List Char} :
    SpellsMembers members t → ∀ rest, ∃ u, skipBlanks (t ++ rest) = '"' :: u
  | .blank hc h, rest => by
    rw [List.cons_append, skipBlanks_cons hc]
    exact h.head rest
  | .last .., _ | .cons .., _ => ⟨_, skipBlanks_of_not (by decide) _⟩

/-- Nothing that is spelled out breaks off. -/
theorem Spells.faults? {n : Node} {t : List Char} : Spells n t → n.faults? = none
  | .blank _ h => h.faults?
  | .null | .yes | .no | .num _ | .str _ | .noItems _ | .arr _ | .noMembers _ | .obj _ => rfl

/-! ## Reading -/

/-- Blanks in front of a value do not matter. -/
theorem readValue_congr (steps : Nat) {t u : List Char} (h : skipBlanks t = skipBlanks u) :
    readValue steps t = readValue steps u := by
  cases steps with
  | zero => rfl
  | succ steps => rw [readValue, readValue, h]

theorem readItems_congr (steps : Nat) {t u : List Char} (h : skipBlanks t = skipBlanks u) :
    readItems steps t = readItems steps u := by
  cases steps with
  | zero => rfl
  | succ steps => rw [readItems, readItems, readValue_congr steps h]

theorem readMembers_congr (steps : Nat) {t u : List Char} (h : skipBlanks t = skipBlanks u) :
    readMembers steps t = readMembers steps u := by
  cases steps with
  | zero => rfl
  | succ steps => rw [readMembers, readMembers, h]

theorem readValue_num (steps : Nat) {n : Numeral} {t rest : List Char}
    (h : Numeral.scan t = .found n []) (hrest : Ends rest) :
    readValue (steps + 1) (t ++ rest) = (.num n.value?, rest) := by
  have hscan := Numeral.scan_append hrest h
  obtain ⟨c, u, rfl, hc⟩ := Numeral.head_of_scan h
  have hmark : c ≠ '"' := by
    rintro rfl
    rcases hc with hc | hc <;> exact absurd hc (by decide)
  rw [List.cons_append] at hscan ⊢
  rw [readValue, skipBlanks_of_not (not_isBlank_of_numeral hc)]
  simp only [hmark, hc, hscan, if_false, if_true, List.nil_append]

theorem readValue_str (steps : Nat) {s : Option String} {t : List Char}
    (h : ∀ rest, Text.scan [] (t ++ rest) = .found s rest) (rest : List Char) :
    readValue (steps + 1) ('"' :: t ++ rest) = (.str s, rest) := by
  rw [List.cons_append, readValue, skipBlanks_of_not (by decide)]
  simp only [h, if_true]

theorem readValue_arr (steps : Nat) {t : List Char} {c : Char} {u : List Char}
    (h : skipBlanks t = c :: u) (hc : c ≠ ']') :
    readValue (steps + 1) ('[' :: t) =
      (.arr (readItems steps t).1 (readItems steps t).2.1, (readItems steps t).2.2) := by
  have hskip : readItems steps (c :: u) = readItems steps t :=
    readItems_congr steps (by rw [← h, skipBlanks_skipBlanks])
  rw [readValue, skipBlanks_of_not (by decide)]
  simp [h, hc, hskip]

theorem readValue_obj (steps : Nat) {t : List Char} {u : List Char} (h : skipBlanks t = '"' :: u) :
    readValue (steps + 1) ('{' :: t) =
      (.obj (readMembers steps t).1 (readMembers steps t).2.1, (readMembers steps t).2.2) := by
  have hskip : readMembers steps ('"' :: u) = readMembers steps t :=
    readMembers_congr steps (by rw [← h, skipBlanks_skipBlanks])
  rw [readValue, skipBlanks_of_not (by decide)]
  simp [h, hskip]

theorem readValue_noItems (steps : Nat) {b : List Char} (hb : Blanks b) (rest : List Char) :
    readValue (steps + 1) ('[' :: (b ++ ']' :: rest)) = (.arr [] .closed, rest) := by
  rw [readValue, skipBlanks_of_not (by decide)]
  simp [skipBlanks_append hb, skipBlanks_of_not (c := ']') (by decide)]

theorem readValue_noMembers (steps : Nat) {b : List Char} (hb : Blanks b) (rest : List Char) :
    readValue (steps + 1) ('{' :: (b ++ '}' :: rest)) = (.obj [] .closed, rest) := by
  rw [readValue, skipBlanks_of_not (by decide)]
  simp [skipBlanks_append hb, skipBlanks_of_not (c := '}') (by decide)]

theorem readItems_last (steps : Nat) {n : Node} {t b rest : List Char}
    (h : readValue steps t = (n, b ++ ']' :: rest)) (hn : n.faults? = none) (hb : Blanks b) :
    readItems (steps + 1) t = ([n], .closed, rest) := by
  rw [readItems]
  simp only [h, hn, skipBlanks_append hb, skipBlanks_of_not (c := ']') (by decide)]
  rfl

theorem readItems_cons (steps : Nat) {n : Node} {t b rest after : List Char} {items : List Node}
    (h : readValue steps t = (n, b ++ ',' :: rest)) (hn : n.faults? = none) (hb : Blanks b)
    (hrest : readItems steps rest = (items, .closed, after)) :
    readItems (steps + 1) t = (n :: items, .closed, after) := by
  rw [readItems]
  simp only [h, hn, skipBlanks_append hb, skipBlanks_of_not (c := ',') (by decide), if_true, hrest]

/-- What comes of the members once the value of one is read. -/
def afterMember (steps : Nat) (name : Option String) (n : Node) (rest : List Char) :
    List (Option String × Node) × Ending × List Char :=
  match skipBlanks rest with
  | [] => ([(name, n)], .cut .truncated .truncated, [])
  | c :: rest =>
    if c = ',' then
      let (members, ending, rest) := readMembers steps rest
      ((name, n) :: members, ending, rest)
    else if c = '}' then ([(name, n)], .closed, rest)
    else ([(name, n)], .cut .malformed .malformed, [])

theorem readMembers_first (steps : Nat) {name : Option String} {n : Node}
    {s b t rest : List Char} (hname : ∀ rest, Text.scan [] (s ++ rest) = .found name rest)
    (hb : Blanks b) (h : readValue steps t = (n, rest)) (hn : n.faults? = none) :
    readMembers (steps + 1) ('"' :: (s ++ (b ++ ':' :: t))) = afterMember steps name n rest := by
  rw [readMembers, skipBlanks_of_not (by decide)]
  simp only [hname, skipBlanks_append hb, skipBlanks_of_not (c := ':') (by decide), if_true, h, hn]
  rfl

theorem readMembers_last (steps : Nat) {name : Option String} {n : Node}
    {s b t d rest : List Char} (hname : ∀ rest, Text.scan [] (s ++ rest) = .found name rest)
    (hb : Blanks b) (h : readValue steps t = (n, d ++ '}' :: rest)) (hn : n.faults? = none)
    (hd : Blanks d) :
    readMembers (steps + 1) ('"' :: (s ++ (b ++ ':' :: t))) = ([(name, n)], .closed, rest) := by
  rw [readMembers_first steps hname hb h hn, afterMember, skipBlanks_append hd,
    skipBlanks_of_not (c := '}') (by decide)]
  rfl

theorem readMembers_cons (steps : Nat) {name : Option String} {n : Node}
    {s b t d rest after : List Char} {members : List (Option String × Node)}
    (hname : ∀ rest, Text.scan [] (s ++ rest) = .found name rest) (hb : Blanks b)
    (h : readValue steps t = (n, d ++ ',' :: rest)) (hn : n.faults? = none) (hd : Blanks d)
    (hrest : readMembers steps rest = (members, .closed, after)) :
    readMembers (steps + 1) ('"' :: (s ++ (b ++ ':' :: t))) =
      ((name, n) :: members, .closed, after) := by
  rw [readMembers_first steps hname hb h hn, afterMember, skipBlanks_append hd,
    skipBlanks_of_not (c := ',') (by decide)]
  simp only [if_true, hrest]

-- A value takes one step, and one more where it stands in a list, so two steps for each character
-- are never used up.

mutual

theorem readValue_of_spells {n : Node} {t : List Char} : Spells n t → ∀ (steps : Nat)
    (rest : List Char), 2 * t.length ≤ steps → Ends rest → readValue steps (t ++ rest) = (n, rest)
  | .blank hc h, steps, rest, hsteps, hrest => by
    rw [List.length_cons] at hsteps
    rw [List.cons_append, readValue_congr steps (skipBlanks_cons hc _)]
    exact readValue_of_spells h steps rest (by omega) hrest
  | .null, steps + 1, rest, _, _ => rfl
  | .yes, steps + 1, rest, _, _ => rfl
  | .no, steps + 1, rest, _, _ => rfl
  | .num h, 0, rest, hsteps, _ => by
    obtain ⟨c, u, rfl, _⟩ := Numeral.head_of_scan h
    rw [List.length_cons] at hsteps
    omega
  | .num h, steps + 1, rest, _, hrest => readValue_num steps h hrest
  | .str h, steps + 1, rest, _, _ => readValue_str steps h rest
  | .noItems hb, steps + 1, rest, _, _ => by
    rw [List.cons_append, List.append_assoc]
    exact readValue_noItems steps hb rest
  | .arr h, steps + 1, rest, hsteps, hrest => by
    obtain ⟨c, u, hskip, hc⟩ := h.head rest
    rw [List.length_cons] at hsteps
    rw [List.cons_append, readValue_arr steps hskip hc,
      readItems_of_spells h steps rest (by omega)]
  | .noMembers hb, steps + 1, rest, _, _ => by
    rw [List.cons_append, List.append_assoc]
    exact readValue_noMembers steps hb rest
  | .obj h, steps + 1, rest, hsteps, hrest => by
    obtain ⟨u, hskip⟩ := h.head rest
    rw [List.length_cons] at hsteps
    rw [List.cons_append, readValue_obj steps hskip, readMembers_of_spells h steps rest (by omega)]

theorem readItems_of_spells {items : List Node} {t : List Char} : SpellsItems items t →
    ∀ (steps : Nat) (rest : List Char), 2 * t.length ≤ steps →
      readItems steps (t ++ rest) = (items, .closed, rest)
  | .last h hb, 0, rest, hsteps | .cons h hb hrest, 0, rest, hsteps => by
    simp only [List.length_append, List.length_cons] at hsteps
    omega
  | .last h hb, steps + 1, rest, hsteps => by
    simp only [List.length_append, List.length_cons] at hsteps
    rw [List.append_assoc, List.append_assoc]
    refine readItems_last steps ?_ h.faults? hb
    exact readValue_of_spells h steps _ (by omega) (Ends.of_blanks hb (Ends.cons (by decide)))
  | .cons h hb hrest, steps + 1, rest, hsteps => by
    simp only [List.length_append, List.length_cons] at hsteps
    rw [List.append_assoc, List.append_assoc]
    refine readItems_cons steps ?_ h.faults? hb (readItems_of_spells hrest steps rest (by omega))
    exact readValue_of_spells h steps _ (by omega) (Ends.of_blanks hb (Ends.cons (by decide)))

theorem readMembers_of_spells {members : List (Option String × Node)} {t : List Char} :
    SpellsMembers members t → ∀ (steps : Nat) (rest : List Char), 2 * t.length ≤ steps →
      readMembers steps (t ++ rest) = (members, .closed, rest)
  | .blank hc h, steps, rest, hsteps => by
    rw [List.length_cons] at hsteps
    rw [List.cons_append, readMembers_congr steps (skipBlanks_cons hc _)]
    exact readMembers_of_spells h steps rest (by omega)
  | .last hname hb h hd, steps + 1, rest, hsteps => by
    simp only [List.length_append, List.length_cons] at hsteps
    simp only [List.cons_append, List.append_assoc]
    refine readMembers_last steps hname hb ?_ h.faults? hd
    exact readValue_of_spells h steps _ (by omega) (Ends.of_blanks hd (Ends.cons (by decide)))
  | .cons hname hb h hd hrest, steps + 1, rest, hsteps => by
    simp only [List.length_append, List.length_cons] at hsteps
    simp only [List.cons_append, List.append_assoc]
    refine readMembers_cons steps hname hb ?_ h.faults? hd
      (readMembers_of_spells hrest steps rest (by omega))
    exact readValue_of_spells h steps _ (by omega) (Ends.of_blanks hd (Ends.cons (by decide)))

end

/-- A text of the grammar, with blanks behind it, is laid out as what it spells. -/
theorem Document.ofText_of_spells {n : Node} {t b : List Char} (h : Spells n t) (hb : Blanks b) :
    Document.ofText (t ++ b) = ⟨n, false⟩ := by
  have hends : Ends b := by
    rw [← List.append_nil b]
    exact Ends.of_blanks hb Ends.nil
  have hskip : skipBlanks b = [] := by
    rw [← List.append_nil b, skipBlanks_append hb]
    rfl
  have hlength : 2 * t.length ≤ 2 * (t ++ b).length + 2 := by
    rw [List.length_append]
    omega
  rw [Document.ofText]
  simp only [readValue_of_spells h _ b hlength hends, hskip]
  rfl

end PlaneBridge.Json
