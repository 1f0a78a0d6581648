import Mathlib.Data.List.Basic
import Mathlib.Data.List.TakeWhile
import PlaneBridge.Proofs.Json.Printer

/-!
# What has been read is spelled out

The reader takes nothing that is not of the grammar.  A value that it lays out without a cut is
spelled by the part of the text that it has passed, by `spells_of_readValue`, and a text of which
nothing is left over spells its node up to the blanks at its end, by `writes_of_ofText`.

Together with `Document.ofText_of_spells` this makes `Writes` the same as being laid out without a
cut, so what holds of all texts of the grammar holds of all texts that are decoded.
-/

namespace PlaneBridge.Json

/-- The text spells the node, with nothing but blanks behind it. -/
def Writes (n : Node) (text : String) : Prop :=
  ∃ t b, text.toList = t ++ b ∧ Spells n t ∧ Blanks b

theorem Writes.ofText {n : Node} {text : String} (h : Writes n text) :
    Document.ofText text.toList = ⟨n, false⟩ := by
  obtain ⟨t, b, htext, hspells, hb⟩ := h
  rw [htext, Document.ofText_of_spells hspells hb]

/-- A text stands for one node at most. -/
theorem Writes.unique {n m : Node} {text : String} (h : Writes n text) (h' : Writes m text) :
    n = m :=
  congrArg Document.root (h.ofText.symm.trans h'.ofText)

theorem exists_blanks (text : List Char) : ∃ b, text = b ++ skipBlanks text ∧ Blanks b :=
  ⟨text.takeWhile isBlank, List.takeWhile_append_dropWhile.symm, fun _ hc =>
    List.mem_takeWhile_imp hc⟩

/-! ## Strings -/

/-- A scan that comes to its end does not depend on what stands behind the closing mark. -/
theorem Text.exists_of_scan {seen : List Piece} {text rest : List Char} {s : Option String}
    (h : scan seen text = .found s rest) :
    ∃ t, text = t ++ rest ∧ ∀ after, scan seen (t ++ after) = .found s after := by
  fun_induction scan seen text with
  | case2 =>
    cases h
    exact ⟨['"'], rfl, fun _ => by simp [scan.eq_def]⟩
  | case4 seen a b c d text n hunit _ ih =>
    obtain ⟨t, rfl, hscan⟩ := ih h
    exact ⟨'\\' :: 'u' :: a :: b :: c :: d :: t, rfl, fun after =>
      (scan_unit hunit).trans (hscan after)⟩
  | case7 seen e text hu d hshort _ ih =>
    obtain ⟨t, rfl, hscan⟩ := ih h
    exact ⟨'\\' :: e :: t, rfl, fun after => (scan_short hu hshort).trans (hscan after)⟩
  | case10 seen c text hmark hbackslash hspace ih =>
    obtain ⟨t, rfl, hscan⟩ := ih h
    exact ⟨c :: t, rfl, fun after => (scan_plain hmark hbackslash hspace).trans (hscan after)⟩
  | _ => cases h

/-! ## Numerals -/

namespace Numeral

/-- Digits end where the text that is left begins, also where that is cut off further on. -/
theorem splitDigits {text t rest : List Char} (h : text.dropWhile Char.isDigit = t ++ rest) :
    text = text.takeWhile Char.isDigit ++ t ++ rest ∧
      (text.takeWhile Char.isDigit ++ t).takeWhile Char.isDigit = text.takeWhile Char.isDigit ∧
      (text.takeWhile Char.isDigit ++ t).dropWhile Char.isDigit = t := by
  have hdigits : ∀ c ∈ text.takeWhile Char.isDigit, c.isDigit = true := fun c hc =>
    List.mem_takeWhile_imp hc
  have hother : t.takeWhile Char.isDigit = [] ∧ t.dropWhile Char.isDigit = t := by
    cases t with
    | nil => exact ⟨rfl, rfl⟩
    | cons c t =>
      have hc := List.head?_dropWhile_not Char.isDigit text
      rw [h] at hc
      have hc : c.isDigit = false := hc
      rw [List.takeWhile_cons, List.dropWhile_cons, hc]
      exact ⟨rfl, rfl⟩
  refine ⟨?_, ?_, ?_⟩
  · rw [List.append_assoc, ← h, List.takeWhile_append_dropWhile]
  · rw [List.takeWhile_append_of_pos hdigits, hother.1, List.append_nil]
  · rw [List.dropWhile_append_of_pos hdigits, hother.2]

theorem splitSign_of_digit {u : List Char} (h : ∀ c ∈ u.head?, c.isDigit = true) :
    splitSign u = (false, u) := by
  rw [splitSign.eq_3]
  · rintro v rfl
    exact absurd (h '+' rfl) (by decide)
  · rintro v rfl
    exact absurd (h '-' rfl) (by decide)

theorem exists_sign (text : List Char) :
    ∃ sign, text = sign ++ (splitSign text).2 ∧
      ∀ u : List Char, (∀ c ∈ u.head?, c.isDigit = true) →
        splitSign (sign ++ u) = ((splitSign text).1, u) := by
  fun_cases splitSign text with
  | case1 rest => exact ⟨['+'], rfl, fun u _ => rfl⟩
  | case2 rest => exact ⟨['-'], rfl, fun u _ => rfl⟩
  | case3 => exact ⟨[], rfl, fun u hu => splitSign_of_digit hu⟩

theorem exists_of_scanExponent {negative : Bool} {whole fraction : List Char} {isWhole : Bool}
    {text rest : List Char} {n : Numeral}
    (h : scanExponent negative whole fraction isWhole text = .found n rest) :
    ∃ t, text = t ++ rest ∧ scanExponent negative whole fraction isWhole t = .found n [] := by
  cases text with
  | nil =>
    cases h
    exact ⟨[], rfl, rfl⟩
  | cons c text =>
    rw [scanExponent] at h
    split at h
    · rename_i hmark
      obtain ⟨sign, htext, hsign⟩ := exists_sign text
      simp only at h
      split at h
      · rw [missing] at h
        cases h
      · rename_i hdigits
        cases h
        obtain ⟨hsplit, htake, hdrop⟩ :=
          splitDigits (t := []) (rfl : (splitSign text).2.dropWhile Char.isDigit = _)
        rw [List.append_nil] at hsplit htake hdrop
        refine ⟨c :: (sign ++ (splitSign text).2.takeWhile Char.isDigit), ?_, ?_⟩
        · rw [List.cons_append, List.append_assoc, ← hsplit, ← htext]
        · have hhead : ∀ d ∈ ((splitSign text).2.takeWhile Char.isDigit).head?,
              d.isDigit = true := fun d hd => List.mem_takeWhile_imp (List.mem_of_head? hd)
          rw [scanExponent, if_pos hmark, hsign _ hhead]
          simp only [htake, hdrop, if_neg hdigits]
    · cases h
      exact ⟨[], rfl, rfl⟩

theorem scanFraction_of_ne {negative : Bool} {whole text : List Char}
    (h : text.head? ≠ some '.') :
    scanFraction negative whole text = scanExponent negative whole [] true text := by
  rw [scanFraction.eq_2]
  rintro rest rfl
  exact h rfl

theorem exists_of_scanFraction {negative : Bool} {whole text rest : List Char} {n : Numeral}
    (h : scanFraction negative whole text = .found n rest) :
    ∃ t, text = t ++ rest ∧ scanFraction negative whole t = .found n [] := by
  by_cases hpoint : text.head? = some '.'
  · obtain ⟨text, rfl⟩ := List.head?_eq_some_iff.mp hpoint
    rw [scanFraction] at h
    split at h
    · rw [missing] at h
      cases h
    · rename_i hdigits
      obtain ⟨t, hrest, hscan⟩ := exists_of_scanExponent h
      obtain ⟨hsplit, htake, hdrop⟩ := splitDigits hrest
      refine ⟨'.' :: (text.takeWhile Char.isDigit ++ t), ?_, ?_⟩
      · rw [List.cons_append, ← hsplit]
      · rw [scanFraction]
        simp only [htake, hdrop, if_neg hdigits, hscan]
  · rw [scanFraction_of_ne hpoint] at h
    obtain ⟨t, rfl, hscan⟩ := exists_of_scanExponent h
    have hhead : t.head? ≠ some '.' := fun heq => hpoint (List.mem_head?_append_of_mem_head? heq)
    exact ⟨t, rfl, (scanFraction_of_ne hhead).trans hscan⟩

theorem exists_of_scanDigits {negative : Bool} {text rest : List Char} {n : Numeral}
    (h : scanDigits negative text = .found n rest) :
    ∃ t, text = t ++ rest ∧ scanDigits negative t = .found n [] := by
  have hscanned : ∀ digits : List Char, text.takeWhile Char.isDigit = digits →
      scanFraction negative digits (text.dropWhile Char.isDigit) = .found n rest →
      ∃ t, text = t ++ rest ∧ t.takeWhile Char.isDigit = digits ∧
        scanFraction negative digits (t.dropWhile Char.isDigit) = .found n [] := by
    rintro digits rfl hfraction
    obtain ⟨t, hrest, hscan⟩ := exists_of_scanFraction hfraction
    obtain ⟨hsplit, htake, hdrop⟩ := splitDigits hrest
    exact ⟨_, hsplit, htake, by rw [hdrop, hscan]⟩
  rw [scanDigits] at h
  split at h
  · rw [missing] at h
    cases h
  · cases h
  · rename_i digits hnone hzeros
    obtain ⟨t, rfl, htake, hscan⟩ := hscanned _ rfl h
    refine ⟨t, rfl, ?_⟩
    rw [← htake] at hnone hzeros hscan
    rw [scanDigits]
    split
    · rename_i heq
      exact absurd heq hnone
    · rename_i heq
      exact absurd heq (hzeros _ _)
    · exact hscan

/-- The characters of a numeral are a numeral alone. -/
theorem exists_of_scan {text rest : List Char} {n : Numeral} (h : scan text = .found n rest) :
    ∃ t, text = t ++ rest ∧ scan t = .found n [] := by
  by_cases hminus : text.head? = some '-'
  · obtain ⟨text, rfl⟩ := List.head?_eq_some_iff.mp hminus
    obtain ⟨t, rfl, hscan⟩ := exists_of_scanDigits h
    exact ⟨'-' :: t, rfl, hscan⟩
  · rw [scan_of_ne hminus] at h
    obtain ⟨t, rfl, hscan⟩ := exists_of_scanDigits h
    have hhead : t.head? ≠ some '-' := fun heq => hminus (List.mem_head?_append_of_mem_head? heq)
    exact ⟨t, rfl, (scan_of_ne hhead).trans hscan⟩

end Numeral

/-! ## Values -/

theorem scanWord_eq_ok {word text rest : List Char} (h : scanWord word text = .ok rest) :
    text = word ++ rest := by
  induction word generalizing text with
  | nil => exact Except.ok.inj h
  | cons w word ih =>
    cases text with
    | nil => cases h
    | cons c text =>
      rw [scanWord] at h
      split at h
      · rename_i hc
        rw [hc, ih h, List.cons_append]
      · cases h

theorem spells_of_wordNode {first : Char} {word text rest : List Char} {node n : Node}
    (hspells : Spells node (first :: word)) (h : wordNode word node text = (n, rest))
    (hn : n.faults? = none) : ∃ t, first :: text = t ++ rest ∧ Spells n t := by
  rw [wordNode] at h
  split at h
  · rename_i hscan
    cases h
    exact ⟨first :: word, by rw [scanWord_eq_ok hscan, List.cons_append], hspells⟩
  · cases h
    cases hn

theorem SpellsItems.blanks {items : List Node} {b t : List Char} (hb : Blanks b)
    (h : SpellsItems items t) : SpellsItems items (b ++ t) := by
  cases h with
  | last h hb' =>
    rw [← List.append_assoc]
    exact .last (h.blanks hb) hb'
  | cons h hb' hrest =>
    rw [← List.append_assoc]
    exact .cons (h.blanks hb) hb' hrest

theorem Ending.closed_of_faults? {ending : Ending}
    (h : (∃ items, (Node.arr items ending).faults? = none) ∨
      ∃ members, (Node.obj members ending).faults? = none) : ending = .closed := by
  cases ending with
  | closed => rfl
  | cut =>
    rcases h with ⟨_, h⟩ | ⟨_, h⟩
    · cases h
    · cases h

/-- What comes of an array behind its bracket. -/
def afterBracket (steps : Nat) (text : List Char) : Node × List Char :=
  match skipBlanks text with
  | [] => (.arr [] (.cut .truncated .truncated), [])
  | c :: after =>
    if c = ']' then (.arr [] .closed, after)
    else
      let (items, ending, rest) := readItems steps (c :: after)
      (.arr items ending, rest)

/-- What comes of an object behind its brace. -/
def afterBrace (steps : Nat) (text : List Char) : Node × List Char :=
  match skipBlanks text with
  | [] => (.obj [] (.cut .truncated .truncated), [])
  | c :: after =>
    if c = '}' then (.obj [] .closed, after)
    else
      let (members, ending, rest) := readMembers steps (c :: after)
      (.obj members ending, rest)

/-- All elements that so many steps lay out are spelled. -/
def ItemsSpelled (steps : Nat) : Prop := ∀ text rest items,
  readItems steps text = (items, .closed, rest) → ∃ t, text = t ++ rest ∧ SpellsItems items t

/-- All members that so many steps lay out are spelled. -/
def MembersSpelled (steps : Nat) : Prop := ∀ text rest members,
  readMembers steps text = (members, .closed, rest) →
    ∃ t, text = t ++ rest ∧ SpellsMembers members t

section

variable {steps : Nat} {text rest : List Char} {n : Node}

theorem spells_of_afterBracket (hspelled : ItemsSpelled steps)
    (h : afterBracket steps text = (n, rest)) (hn : n.faults? = none) :
    ∃ t, text = t ++ rest ∧ Spells n ('[' :: t) := by
  obtain ⟨b, htext, hb⟩ := exists_blanks text
  rw [afterBracket] at h
  split at h
  · cases h
    cases hn
  rename_i c after hc
  rw [hc] at htext
  split at h
  · rename_i hclose
    cases h
    refine ⟨b ++ [']'], ?_, .noItems hb⟩
    rw [htext, hclose, List.append_assoc]
    rfl
  · cases hitems : readItems steps (c :: after) with
    | mk items more =>
      obtain ⟨ending, last⟩ := more
      simp only [hitems] at h
      cases h
      cases Ending.closed_of_faults? (.inl ⟨_, hn⟩)
      obtain ⟨t, ht, hspells⟩ := hspelled _ _ _ hitems
      exact ⟨b ++ t, by rw [htext, ht, List.append_assoc], .arr (hspells.blanks hb)⟩

theorem spells_of_afterBrace (hspelled : MembersSpelled steps)
    (h : afterBrace steps text = (n, rest)) (hn : n.faults? = none) :
    ∃ t, text = t ++ rest ∧ Spells n ('{' :: t) := by
  obtain ⟨b, htext, hb⟩ := exists_blanks text
  rw [afterBrace] at h
  split at h
  · cases h
    cases hn
  rename_i c after hc
  rw [hc] at htext
  split at h
  · rename_i hclose
    cases h
    refine ⟨b ++ ['}'], ?_, .noMembers hb⟩
    rw [htext, hclose, List.append_assoc]
    rfl
  · cases hmembers : readMembers steps (c :: after) with
    | mk members more =>
      obtain ⟨ending, last⟩ := more
      simp only [hmembers] at h
      cases h
      cases Ending.closed_of_faults? (.inr ⟨_, hn⟩)
      obtain ⟨t, ht, hspells⟩ := hspelled _ _ _ hmembers
      exact ⟨b ++ t, by rw [htext, ht, List.append_assoc], .obj (hspells.blanks hb)⟩

/-- A member that has been read is the last one, or others follow behind a comma. -/
theorem spells_of_afterMember (hspelled : MembersSpelled steps) {name : Option String}
    {members : List (Option String × Node)} {last : List Char}
    (h : afterMember steps name n rest = (members, .closed, last)) :
    ∃ d, Blanks d ∧ ((rest = d ++ '}' :: last ∧ members = [(name, n)]) ∨
      ∃ others u, rest = d ++ ',' :: (u ++ last) ∧ members = (name, n) :: others ∧
        SpellsMembers others u) := by
  obtain ⟨d, hrest, hd⟩ := exists_blanks rest
  refine ⟨d, hd, ?_⟩
  rw [afterMember] at h
  split at h
  · cases h
  rename_i c after hc
  rw [hc] at hrest
  split at h
  · rename_i hcomma
    cases hmembers : readMembers steps after with
    | mk others more =>
      obtain ⟨ending, final⟩ := more
      simp only [hmembers] at h
      cases h
      obtain ⟨u, hu, hspells⟩ := hspelled _ _ _ hmembers
      exact .inr ⟨others, u, by rw [hrest, hcomma, hu], rfl, hspells⟩
  split at h
  · rename_i hclose
    cases h
    exact .inl ⟨by rw [hrest, hclose], rfl⟩
  · cases h

end

-- The steps only bound the reader, so the induction is on them and nothing is asked of how many
-- there are.

mutual

theorem spells_of_readValue : (steps : Nat) → {text rest : List Char} → {n : Node} →
    readValue steps text = (n, rest) → n.faults? = none → ∃ t, text = t ++ rest ∧ Spells n t
  | 0, _, _, _, h, hn => by
    cases h
    cases hn
  | steps + 1, text, rest, n, h, hn => by
    obtain ⟨b, htext, hb⟩ := exists_blanks text
    suffices hvalue : ∃ t, skipBlanks text = t ++ rest ∧ Spells n t by
      obtain ⟨t, ht, hspells⟩ := hvalue
      exact ⟨b ++ t, by rw [List.append_assoc, ← ht, ← htext], hspells.blanks hb⟩
    rw [readValue] at h
    split at h
    · cases h
      cases hn
    rename_i c inner hfirst
    rw [hfirst]
    split at h
    · rename_i hc
      split at h
      · rename_i s after hscan
        cases h
        obtain ⟨t, rfl, hfound⟩ := Text.exists_of_scan hscan
        exact ⟨'"' :: t, by rw [hc, List.cons_append], .str hfound⟩
      · cases h
        cases hn
    split at h
    · split at h
      · rename_i x after hscan
        cases h
        obtain ⟨t, ht, hfound⟩ := Numeral.exists_of_scan hscan
        exact ⟨t, ht, .num hfound⟩
      · cases h
        cases hn
    split at h
    · rename_i hc
      rw [hc]
      exact spells_of_wordNode .null h hn
    split at h
    · rename_i hc
      rw [hc]
      exact spells_of_wordNode .yes h hn
    split at h
    · rename_i hc
      rw [hc]
      exact spells_of_wordNode .no h hn
    split at h
    · rename_i hc
      obtain ⟨t, rfl, hspells⟩ := spells_of_afterBracket (spells_of_readItems steps) h hn
      exact ⟨'[' :: t, by rw [hc, List.cons_append], hspells⟩
    split at h
    · rename_i hc
      obtain ⟨t, rfl, hspells⟩ := spells_of_afterBrace (spells_of_readMembers steps) h hn
      exact ⟨'{' :: t, by rw [hc, List.cons_append], hspells⟩
    · cases h
      cases hn

theorem spells_of_readItems : (steps : Nat) → ItemsSpelled steps
  | 0 => fun _ _ _ h => nomatch h
  | steps + 1 => by
    intro text rest items h
    rw [readItems] at h
    cases hvalue : readValue steps text with
    | mk item after =>
      simp only [hvalue] at h
      split at h
      · cases h
      rename_i hitem
      obtain ⟨t, rfl, hspells⟩ := spells_of_readValue steps hvalue hitem
      obtain ⟨b, hafter, hb⟩ := exists_blanks after
      split at h
      · cases h
      rename_i c inner hc
      rw [hc] at hafter
      split at h
      · rename_i hcomma
        cases hitems : readItems steps inner with
        | mk others more =>
          obtain ⟨ending, last⟩ := more
          simp only [hitems] at h
          cases h
          obtain ⟨u, rfl, hothers⟩ := spells_of_readItems steps _ _ _ hitems
          refine ⟨t ++ (b ++ ',' :: u), ?_, .cons hspells hb hothers⟩
          rw [hafter, hcomma]
          simp only [List.cons_append, List.append_assoc]
      split at h
      · rename_i hclose
        cases h
        refine ⟨t ++ (b ++ [']']), ?_, .last hspells hb⟩
        rw [hafter, hclose]
        simp only [List.cons_append, List.append_assoc, List.nil_append]
      · cases h

theorem spells_of_readMembers : (steps : Nat) → MembersSpelled steps
  | 0 => fun _ _ _ h => nomatch h
  | steps + 1 => by
    intro text rest members h
    obtain ⟨b, htext, hb⟩ := exists_blanks text
    suffices hmembers : ∃ t, skipBlanks text = t ++ rest ∧ SpellsMembers members t by
      obtain ⟨t, ht, hspells⟩ := hmembers
      exact ⟨b ++ t, by rw [List.append_assoc, ← ht, ← htext], hspells.blanks hb⟩
    rw [readMembers] at h
    split at h
    · cases h
    rename_i c inner hfirst
    rw [hfirst]
    split at h
    case isFalse => cases h
    rename_i hc
    split at h
    · cases h
    rename_i name after hscan
    obtain ⟨s, rfl, hname⟩ := Text.exists_of_scan hscan
    obtain ⟨b', hafter, hb'⟩ := exists_blanks after
    split at h
    · cases h
    rename_i d behind hd
    rw [hd] at hafter
    split at h
    case isFalse => cases h
    rename_i hcolon
    cases hvalue : readValue steps behind with
    | mk value more =>
      simp only [hvalue] at h
      split at h
      · cases h
      rename_i hwhole
      obtain ⟨t, rfl, hspells⟩ := spells_of_readValue steps hvalue hwhole
      obtain ⟨e, he, ⟨hmore, rfl⟩ | ⟨others, u, hmore, rfl, hothers⟩⟩ :=
        spells_of_afterMember (spells_of_readMembers steps) h
      · refine ⟨'"' :: (s ++ (b' ++ ':' :: (t ++ (e ++ ['}'])))), ?_, .last hname hb' hspells he⟩
        rw [hc, hafter, hcolon, hmore]
        simp only [List.cons_append, List.append_assoc, List.nil_append]
      · refine ⟨'"' :: (s ++ (b' ++ ':' :: (t ++ (e ++ ',' :: u)))), ?_,
          .cons hname hb' hspells he hothers⟩
        rw [hc, hafter, hcolon, hmore]
        simp only [List.cons_append, List.append_assoc]

end

/-! ## Texts -/

/-- A text that is laid out without a cut, and with nothing left over, is of the grammar. -/
theorem writes_of_ofText {n : Node} {text : String}
    (h : Document.ofText text.toList = ⟨n, false⟩) (hn : n.faults? = none) : Writes n text := by
  cases hvalue : readValue (2 * text.toList.length + 2) text.toList with
  | mk root rest =>
    simp only [Document.ofText, hvalue, Document.mk.injEq, Bool.not_eq_false',
      List.isEmpty_iff] at h
    obtain ⟨rfl, hrest⟩ := h
    obtain ⟨t, htext, hspells⟩ := spells_of_readValue _ hvalue hn
    obtain ⟨b, hblanks, hb⟩ := exists_blanks rest
    rw [hrest, List.append_nil] at hblanks
    exact ⟨t, b, hblanks ▸ htext, hspells, hb⟩

/-- A value is written by both ways of printing it. -/
theorem Value.writes_printed {v : Value} (h : FloatsReadBack v.floats) {text : String}
    (htext : text = v.toText ∨ text = v.toPrettyText) : Writes v.node text := by
  have hwhole : v.node.faults? = none := (v.spells_compact h).faults?
  exact writes_of_ofText (Value.ofText_printed h htext) hwhole

end PlaneBridge.Json
