import PlaneBridge.Proofs.Text.Base64.Readable
import PlaneBridge.Proofs.Text.Utf8
import PlaneBridge.Trust.Pem

/-!
# Lines and marks

`Lined` says which lines a text has, whichever way they end, and `Opens` and `Closes` which of them
begin and end a section.  What a line does is settled by its bytes without the end: marks have no
line ends in them, `prefix_append_iff`, and the label of a line that begins a section stands before
whatever is behind its dashes, `label?_append`.  The label of such a line is found again in it,
`label?_opening`, unless it ends in what belongs to the mark.
-/

namespace PlaneBridge.Trust.Pem

open Text

/-! ## Lines -/

/-- The bytes are a line without its end. -/
def IsLine (line : List UInt8) : Prop := ∀ b ∈ line, isLineEnd b = false

instance (line : List UInt8) : Decidable (IsLine line) :=
  decidable_of_iff (line.all (fun b => !isLineEnd b) = true) (by simp [IsLine])

/-- How a line ends: with a line feed, a carriage return or both. -/
inductive Ending where
  | lineFeed
  | carriageReturn
  | both
  deriving DecidableEq, Repr

def Ending.bytes : Ending → List UInt8
  | .lineFeed => [10]
  | .carriageReturn => [13]
  | .both => [13, 10]

/-- The text has these lines.  Each of them ends in one of the three ways, but the last one need
not end at all. -/
inductive Lined : List (List UInt8) → List UInt8 → Prop
  | nil : Lined [] []
  | last {line : List UInt8} (hline : IsLine line) (hne : line ≠ []) : Lined [line] line
  | cons {line : List UInt8} {ls : List (List UInt8)} {text : List UInt8} (ending : Ending)
      (hline : IsLine line) (h : Lined ls text) : Lined (line :: ls) (line ++ ending.bytes ++ text)

theorem linesFrom_append {line : List UInt8} (hline : IsLine line) (before text : List UInt8) :
    linesFrom before (line ++ text) = linesFrom (before ++ line) text := by
  induction line generalizing before with
  | nil => rw [List.nil_append, List.append_nil]
  | cons b line ih =>
    obtain ⟨hb, hline⟩ := List.forall_mem_cons.mp hline
    rw [List.cons_append, linesFrom, hb, if_neg Bool.false_ne_true, ih hline, List.append_assoc,
      List.singleton_append]

theorem lines_of_isLine {line : List UInt8} (hline : IsLine line) (hne : line ≠ []) :
    lines line = [line] := by
  have h := linesFrom_append hline [] []
  rw [List.append_nil, List.nil_append] at h
  rw [lines, h, linesFrom, if_neg]
  simp [hne]

theorem lines_cons {line : List UInt8} (hline : IsLine line) {b : UInt8} (hb : isLineEnd b = true)
    (text : List UInt8) : lines (line ++ b :: text) = (line ++ [b]) :: lines text := by
  rw [lines, linesFrom_append hline, List.nil_append, linesFrom, if_pos hb]
  rfl

/-- A text whose last byte ends a line. -/
def Terminated (text : List UInt8) : Prop := ∃ b, text.getLast? = some b ∧ isLineEnd b = true

theorem linesFrom_terminated {text : List UInt8} (h : Terminated text) (before rest : List UInt8) :
    linesFrom before (text ++ rest) = linesFrom before text ++ lines rest := by
  obtain ⟨e, hlast, he⟩ := h
  induction text generalizing before with
  | nil => cases hlast
  | cons b text ih =>
    rw [List.cons_append, linesFrom, linesFrom]
    cases text with
    | nil =>
      obtain rfl : b = e := Option.some.inj hlast
      rw [if_pos he, if_pos he]
      rfl
    | cons c text =>
      rw [List.getLast?_cons_cons] at hlast
      split
      · rw [ih [] hlast, List.cons_append]
      · exact ih _ hlast

theorem lines_append {text : List UInt8} (h : Terminated text) (rest : List UInt8) :
    lines (text ++ rest) = lines text ++ lines rest :=
  linesFrom_terminated h [] rest

/-! ## Marks -/

/-- A line that begins a section, as far as its beginning goes. -/
def Opens (line : List UInt8) : Prop := bytes "-----BEGIN " <+: line

/-- A line that ends a section of this label. -/
def Closes (label line : List UInt8) : Prop :=
  bytes "-----END " ++ label ++ bytes "-----" <+: line

def opening (label : List UInt8) : List UInt8 := bytes "-----BEGIN " ++ label ++ bytes "-----"

def closing (label : List UInt8) : List UInt8 := bytes "-----END " ++ label ++ bytes "-----"

/-- The label of a section.  It ends neither in a dash nor in a space, which could not be told from
what comes behind it. -/
structure IsLabel (label : List UInt8) : Prop where
  isLine : IsLine label
  ending : ∀ b, label.getLast? = some b → isDash b = false ∧ b ≠ 32

/-- Lines that neither begin a section nor end one of this label. -/
def IsBody (label : List UInt8) (body : List (List UInt8)) : Prop :=
  ∀ line ∈ body, ¬ Opens line ∧ ¬ Closes label line

theorem bytes_spelled {s : String} (h : s.toList.all (fun c => c.toNat < 128) = true) :
    bytes s = s.toList.map Char.toUInt8 := by
  rw [bytes, Utf8.bytes_of_ascii]
  simpa using h

theorem begin_spelled : bytes "-----BEGIN " = [45, 45, 45, 45, 45, 66, 69, 71, 73, 78, 32] := by
  rw [bytes_spelled (by decide)]
  decide

theorem end_spelled : bytes "-----END " = [45, 45, 45, 45, 45, 69, 78, 68, 32] := by
  rw [bytes_spelled (by decide)]
  decide

theorem dashes_spelled : bytes "-----" = [45, 45, 45, 45, 45] := by
  rw [bytes_spelled (by decide)]
  decide

theorem certificate_spelled : certificate = [67, 69, 82, 84, 73, 70, 73, 67, 65, 84, 69] := by
  rw [certificate, bytes_spelled (by decide)]
  decide

theorem isLine_begin : IsLine (bytes "-----BEGIN ") := by
  rw [begin_spelled]
  decide

theorem IsLine.closing {label : List UInt8} (h : IsLine label) : IsLine (closing label) := by
  have hend : IsLine (bytes "-----END ") := by
    rw [end_spelled]
    decide
  have hdashes : IsLine (bytes "-----") := by
    rw [dashes_spelled]
    decide
  intro b hb
  simp only [Pem.closing, List.mem_append] at hb
  rcases hb with (hb | hb) | hb
  · exact hend b hb
  · exact h b hb
  · exact hdashes b hb

theorem isLabel_certificate : IsLabel certificate := by
  rw [certificate_spelled]
  refine ⟨by decide, fun b hb => ?_⟩
  obtain rfl : 69 = b := Option.some.inj hb
  decide

theorem opens_opening (label : List UInt8) : Opens (opening label) := by
  rw [Opens, opening, List.append_assoc]
  exact List.prefix_append _ _

theorem closes_closing (label : List UInt8) : Closes label (closing label) := List.prefix_refl _

/-- A line that ends a section begins none. -/
theorem not_opens_closing (label : List UInt8) : ¬ Opens (closing label) := by
  intro h
  simp only [Opens, closing, begin_spelled, end_spelled, List.cons_append, List.nil_append,
    List.cons_prefix_cons] at h
  exact absurd h.2.2.2.2.2.1 (by decide)

/-! ## Line ends at the end of a line -/

/-- Bytes that end lines, and nothing else. -/
def IsEnd (e : List UInt8) : Prop := ∀ b ∈ e, isLineEnd b = true

instance (e : List UInt8) : Decidable (IsEnd e) :=
  decidable_of_iff (e.all isLineEnd = true) (by simp [IsEnd])

/-- A mark without line ends is not made up by the end of a line. -/
theorem prefix_append_iff {mark : List UInt8} (hmark : IsLine mark) {e : List UInt8} (he : IsEnd e)
    (line : List UInt8) : mark <+: line ++ e ↔ mark <+: line := by
  constructor
  · intro h
    have hline : line <+: line ++ e := List.prefix_append line e
    by_cases hlen : mark.length ≤ line.length
    · exact List.prefix_of_prefix_length_le h hline hlen
    · obtain ⟨more, rfl⟩ := List.prefix_of_prefix_length_le hline h (by omega)
      cases more with
      | nil => exact absurd (by simp) hlen
      | cons b more =>
        have hb : b ∈ e := by
          have hmore : b :: more <+: e := (List.prefix_append_right_inj line).mp h
          exact hmore.subset List.mem_cons_self
        have hfalse : isLineEnd b = false :=
          hmark b (List.mem_append_right line List.mem_cons_self)
        rw [he b hb] at hfalse
        cases hfalse
  · intro h
    exact h.trans (List.prefix_append line e)

theorem trailingDashes_end {e : List UInt8} (he : IsEnd e) (count : Nat)
    (before rest : List UInt8) :
    trailingDashes count before (e ++ rest) = trailingDashes count before rest := by
  induction e with
  | nil => rfl
  | cons b e ih =>
    obtain ⟨hb, he⟩ := List.forall_mem_cons.mp he
    have hdash : isDash b = false := by
      have hcases : b = 10 ∨ b = 13 := by simpa [isLineEnd] using hb
      rcases hcases with rfl | rfl <;> decide
    rw [List.cons_append, trailingDashes, hdash, if_neg Bool.false_ne_true, if_pos (.inl hb), ih he]

theorem label?_eq (line : List UInt8) :
    label? line =
      if (trailingDashes 0 [] line.reverse).1 = 5 then
        some ((trailingDashes 0 [] line.reverse).2.reverse.drop 11)
      else none :=
  rfl

theorem label?_append {e : List UInt8} (he : IsEnd e) (line : List UInt8) :
    label? (line ++ e) = label? line := by
  have hreverse : IsEnd e.reverse := fun b hb => he b (List.mem_reverse.mp hb)
  rw [label?_eq, label?_eq, List.reverse_append, trailingDashes_end hreverse]

theorem mem_of_trailingDashes {b : UInt8} {count : Nat} {before rest : List UInt8}
    (h : b ∈ (trailingDashes count before rest).2) : b ∈ before ∨ b ∈ rest := by
  induction rest generalizing count before with
  | nil => exact .inl h
  | cons c rest ih =>
    rw [trailingDashes] at h
    split at h
    · rcases ih h with h | h <;> exact .inr (List.mem_cons_of_mem c h)
    · split at h
      · exact (ih h).imp_right (List.mem_cons_of_mem c)
      · exact .inl h

theorem isLine_of_label? {line label : List UInt8} (hline : IsLine line)
    (h : label? line = some label) : IsLine label := by
  rw [label?_eq] at h
  split at h
  · obtain rfl := Option.some.inj h
    intro b hb
    have hbefore := List.mem_reverse.mp (List.mem_of_mem_drop hb)
    rcases mem_of_trailingDashes hbefore with hb | hb
    · cases hb
    · exact hline b (List.mem_reverse.mp hb)
  · cases h

/-- The label is found in the line that has been made from it. -/
theorem label?_opening {label : List UInt8} (h : IsLabel label) :
    label? (opening label) = some label := by
  -- behind five dashes the label ends the run, or the letter before its blank if it is empty
  have hstop : ∀ before, trailingDashes 5 before
      (label.reverse ++ [32, 78, 73, 71, 69, 66, 45, 45, 45, 45, 45]) = (5, before) := by
    intro before
    cases hreverse : label.reverse with
    | nil => rfl
    | cons b rest =>
      have hlast : label.getLast? = some b := by
        rw [← List.head?_reverse, hreverse]
        rfl
      obtain ⟨hdash, hspace⟩ := h.ending b hlast
      have hend : isLineEnd b = false := h.isLine b (List.mem_of_getLast? hlast)
      rw [List.cons_append, trailingDashes, hdash, if_neg Bool.false_ne_true, hend, if_neg]
      simp [hspace]
  have hreverse : (opening label).reverse =
      45 :: 45 :: 45 :: 45 :: 45 ::
        (label.reverse ++ [32, 78, 73, 71, 69, 66, 45, 45, 45, 45, 45]) := by
    rw [opening, begin_spelled, dashes_spelled]
    simp
  have hdashes : trailingDashes 0 [] (opening label).reverse =
      (5, label.reverse ++ [32, 78, 73, 71, 69, 66, 45, 45, 45, 45, 45]) := by
    rw [hreverse]
    exact hstop _
  rw [label?_eq, hdashes]
  simp

end PlaneBridge.Trust.Pem
