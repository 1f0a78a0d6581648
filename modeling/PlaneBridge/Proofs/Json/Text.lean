import PlaneBridge.Json.Text

/-!
# Strings read back

Every character of a quoted string is one step of the scan: a code unit for a character that is
written with `\u`, a character otherwise.  No code unit among them is a surrogate, so the steps join
to the text that was quoted, and `scan_quoted` says that scanning it gives that text and stops right
behind the closing mark.
-/

namespace PlaneBridge.Json.Text

/-- The step of a scan at an escaped character. -/
def pieceOf (c : Char) : Piece :=
  if c < ' ' ∧ c ∉ ['\x08', '\x0c', '\n', '\r', '\t'] then .unit c.toNat else .char c

theorem hexUnit?_hexDigit {n : Nat} (h : n < 32) :
    hexUnit? '0' '0' (hexDigit (n / 16)) (hexDigit n) = some n := by
  have all : ∀ n < 32, hexUnit? '0' '0' (hexDigit (n / 16)) (hexDigit n) = some n := by decide
  exact all n h

theorem scan_short {seen : List Piece} {e d : Char} {rest : List Char} (hu : e ≠ 'u')
    (h : shortEscape? e = some d) : scan seen ('\\' :: e :: rest) = scan (.char d :: seen) rest := by
  have hmark : ('\\' : Char) ≠ '"' := by decide
  rw [scan.eq_def]
  simp only [hmark, hu, h, if_false, if_true]

theorem scan_unit {seen : List Piece} {a b c d : Char} {n : Nat} {rest : List Char}
    (h : hexUnit? a b c d = some n) :
    scan seen ('\\' :: 'u' :: a :: b :: c :: d :: rest) = scan (.unit n :: seen) rest := by
  have hmark : ('\\' : Char) ≠ '"' := by decide
  rw [scan.eq_def]
  simp only [hmark, h, if_false, if_true]

theorem scan_plain {seen : List Piece} {c : Char} {rest : List Char} (hmark : c ≠ '"')
    (hbackslash : c ≠ '\\') (hspace : ¬ c < ' ') :
    scan seen (c :: rest) = scan (.char c :: seen) rest := by
  rw [scan.eq_def]
  simp only [hmark, hbackslash, hspace, if_false]

theorem lt_of_lt_space {c : Char} (h : c < ' ') : c.toNat < 32 := h

theorem scan_escape (seen : List Piece) (c : Char) (rest : List Char) :
    scan seen (escape c ++ rest) = scan (pieceOf c :: seen) rest := by
  by_cases hmark : c = '"'
  · subst hmark
    exact scan_short (by decide) (by decide)
  by_cases hbackslash : c = '\\'
  · subst hbackslash
    exact scan_short (by decide) (by decide)
  by_cases hshort : c ∈ ['\x08', '\x0c', '\n', '\r', '\t']
  · simp only [List.mem_cons, List.not_mem_nil, or_false] at hshort
    rcases hshort with rfl | rfl | rfl | rfl | rfl <;> exact scan_short (by decide) (by decide)
  have hne := hshort
  simp only [List.mem_cons, List.not_mem_nil, or_false, not_or] at hne
  obtain ⟨hb, hf, hn, hr, ht⟩ := hne
  by_cases hspace : c < ' '
  · have hunit := hexUnit?_hexDigit (lt_of_lt_space hspace)
    rw [pieceOf, if_pos ⟨hspace, hshort⟩, ← scan_unit hunit]
    simp only [escape, hmark, hbackslash, hb, hf, hn, hr, ht, hspace, if_false, if_true]
    rfl
  · rw [pieceOf, if_neg fun h => hspace h.1, ← scan_plain hmark hbackslash hspace]
    simp only [escape, hmark, hbackslash, hb, hf, hn, hr, ht, hspace, if_false]
    rfl

theorem join?_pieceOf (s : List Char) : join? (s.map pieceOf) = some s := by
  induction s with
  | nil => rfl
  | cons c s ih =>
    rw [List.map_cons, pieceOf]
    split
    · rename_i h
      have hlt : c.toNat < 32 := lt_of_lt_space h.1
      have htrailing : isTrailing c.toNat = false := by
        simp only [isTrailing, Bool.and_eq_false_iff, decide_eq_false_iff_not]
        omega
      have hleading : isLeading c.toNat = false := by
        simp only [isLeading, Bool.and_eq_false_iff, decide_eq_false_iff_not]
        omega
      rw [join?.eq_def]
      simp only [htrailing, hleading, Bool.false_eq_true, if_false, ih, Option.map_some,
        Char.ofNat_toNat]
    · rw [join?, ih, Option.map_some]

theorem scan_escapes (seen : List Piece) (s rest : List Char) :
    scan seen (s.flatMap escape ++ '"' :: rest) =
      .found ((join? (seen.reverse ++ s.map pieceOf)).map String.ofList) rest := by
  induction s generalizing seen with
  | nil =>
    rw [List.flatMap_nil, List.nil_append, scan.eq_def, List.map_nil, List.append_nil]
    simp only [if_true]
  | cons c s ih =>
    rw [List.flatMap_cons, List.append_assoc, scan_escape, ih, List.reverse_cons, List.map_cons,
      List.append_assoc]
    rfl

/-- A quoted text, read from behind its opening mark. -/
theorem scan_quoted (s rest : List Char) :
    scan [] (s.flatMap escape ++ '"' :: rest) = .found (some (String.ofList s)) rest := by
  rw [scan_escapes, List.reverse_nil, List.nil_append, join?_pieceOf, Option.map_some]

end PlaneBridge.Json.Text
