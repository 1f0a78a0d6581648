import PlaneBridge.Json.Reader
import PlaneBridge.Proofs.Number.Decimal

/-!
# Numbers read back

A numeral ends where the text behind it cannot go on with it: `Ends` says so of that text, and
`Numeral.scan_append` that a numeral which is scanned to its end alone is scanned to the same place
in front of such a text.

A number reads back if its own text is a numeral that reads as this number.  Integers do, over the
whole of both 64-bit ranges, by `Number.readsBack_int`.  Of a binary64 number it is not to be had in
general, since a numeral with a fraction or an exponent is rounded twice; where it is needed it is
asked for number by number.
-/

namespace PlaneBridge.Json

/-- No character that could belong to a numeral stands at the beginning. -/
def Ends (rest : List Char) : Prop :=
  ∀ c ∈ rest.head?, c.isDigit = false ∧ c ≠ '.' ∧ c ≠ 'e' ∧ c ≠ 'E'

theorem Ends.nil : Ends [] := by
  intro c h
  cases h

theorem Ends.digit {c : Char} {rest : List Char} (h : Ends (c :: rest)) : c.isDigit = false :=
  (h c rfl).1

theorem Ends.cons {c : Char} {rest : List Char}
    (h : c.isDigit = false ∧ c ≠ '.' ∧ c ≠ 'e' ∧ c ≠ 'E') : Ends (c :: rest) := by
  intro d hd
  obtain rfl := Option.some.inj hd
  exact h

namespace Numeral

variable {rest : List Char}

theorem takeWhile_append_ends (hrest : Ends rest) (t : List Char) :
    (t ++ rest).takeWhile Char.isDigit = t.takeWhile Char.isDigit := by
  induction t with
  | nil =>
    cases rest with
    | nil => rfl
    | cons c rest => rw [List.nil_append, List.takeWhile_cons, hrest.digit]; rfl
  | cons c t ih =>
    rw [List.cons_append, List.takeWhile_cons, List.takeWhile_cons, ih]

theorem dropWhile_append_ends (hrest : Ends rest) (t : List Char) :
    (t ++ rest).dropWhile Char.isDigit = t.dropWhile Char.isDigit ++ rest := by
  induction t with
  | nil =>
    cases rest with
    | nil => rfl
    | cons c rest => rw [List.nil_append, List.dropWhile_cons, hrest.digit]; rfl
  | cons c t ih =>
    rw [List.cons_append, List.dropWhile_cons, List.dropWhile_cons, ih]
    split <;> rfl

theorem scanExponent_ends (hrest : Ends rest) (negative : Bool) (whole fraction : List Char)
    (isWhole : Bool) :
    scanExponent negative whole fraction isWhole rest =
      .found ⟨negative, whole, fraction, none, isWhole⟩ rest := by
  cases rest with
  | nil => rfl
  | cons c rest =>
    obtain ⟨_, _, he, hE⟩ := hrest c rfl
    simp only [scanExponent, he, hE, or_self, if_false]

theorem splitSign_append {t : List Char} (ht : t ≠ []) (rest : List Char) :
    splitSign (t ++ rest) = ((splitSign t).1, (splitSign t).2 ++ rest) := by
  match t, ht with
  | c :: t, _ =>
    by_cases hplus : c = '+'
    · subst hplus
      rfl
    by_cases hminus : c = '-'
    · subst hminus
      rfl
    have hplain : ∀ u, splitSign (c :: u) = (false, c :: u) := by
      intro u
      rw [splitSign.eq_3]
      · exact fun _ h => hplus (List.cons.inj h).1
      · exact fun _ h => hminus (List.cons.inj h).1
    rw [List.cons_append, hplain, hplain]
    rfl

theorem scanExponent_append (hrest : Ends rest) {negative : Bool} {whole fraction : List Char}
    {isWhole : Bool} {t u : List Char} {n : Numeral}
    (h : scanExponent negative whole fraction isWhole t = .found n u) :
    scanExponent negative whole fraction isWhole (t ++ rest) = .found n (u ++ rest) := by
  cases t with
  | nil =>
    cases h
    exact scanExponent_ends hrest negative whole fraction isWhole
  | cons c t =>
    simp only [scanExponent, List.cons_append] at h ⊢
    by_cases hmark : c = 'e' ∨ c = 'E'
    · rw [if_pos hmark] at h ⊢
      have ht : t ≠ [] := by
        rintro rfl
        cases h
      simp only [splitSign_append ht, takeWhile_append_ends hrest, dropWhile_append_ends hrest]
      split at h
      · cases h
      · rename_i hdigits
        rw [if_neg hdigits]
        cases h
        rfl
    · rw [if_neg hmark] at h ⊢
      cases h
      rfl

theorem scanFraction_append (hrest : Ends rest) {negative : Bool} {whole t u : List Char}
    {n : Numeral} (h : scanFraction negative whole t = .found n u) :
    scanFraction negative whole (t ++ rest) = .found n (u ++ rest) := by
  by_cases hpoint : t.head? = some '.'
  · obtain ⟨t, rfl⟩ : ∃ u, t = '.' :: u := by
      cases t with
      | nil => cases hpoint
      | cons c t => exact ⟨t, by rw [Option.some.inj hpoint]⟩
    simp only [scanFraction, List.cons_append, takeWhile_append_ends hrest,
      dropWhile_append_ends hrest] at h ⊢
    split at h
    · cases h
    · rename_i hdigits
      rw [if_neg hdigits]
      exact scanExponent_append hrest h
  · have hwhole : ∀ v : List Char, v.head? ≠ some '.' →
        scanFraction negative whole v = scanExponent negative whole [] true v := by
      intro v hv
      rw [scanFraction.eq_2]
      rintro w rfl
      exact hv rfl
    rw [hwhole t hpoint] at h
    have hjoined : (t ++ rest).head? ≠ some '.' := by
      cases t with
      | nil => exact fun heq => (hrest '.' heq).2.1 rfl
      | cons c t => exact hpoint
    rw [hwhole _ hjoined]
    exact scanExponent_append hrest h

theorem scanDigits_append (hrest : Ends rest) {negative : Bool} {t u : List Char} {n : Numeral}
    (h : scanDigits negative t = .found n u) :
    scanDigits negative (t ++ rest) = .found n (u ++ rest) := by
  simp only [scanDigits, takeWhile_append_ends hrest, dropWhile_append_ends hrest] at h ⊢
  split at h
  · cases h
  · cases h
  · exact scanFraction_append hrest h

theorem scan_minus (t : List Char) : scan ('-' :: t) = scanDigits true t := rfl

theorem scan_of_ne {t : List Char} (h : t.head? ≠ some '-') : scan t = scanDigits false t := by
  rw [scan.eq_2]
  rintro u rfl
  exact h rfl

/-- What is scanned of a text is scanned of it in front of another that the numeral cannot go on
with. -/
theorem scan_append (hrest : Ends rest) {t u : List Char} {n : Numeral} (h : scan t = .found n u) :
    scan (t ++ rest) = .found n (u ++ rest) := by
  match t, h with
  | [], h => cases h
  | c :: t, h =>
    by_cases hminus : c = '-'
    · subst hminus
      exact scanDigits_append hrest h
    have hne : ∀ v : List Char, (c :: v).head? ≠ some '-' := fun v heq =>
      hminus (Option.some.inj heq)
    rw [scan_of_ne (hne t)] at h
    rw [List.cons_append, scan_of_ne (hne _)]
    exact scanDigits_append hrest h

/-- A numeral begins with a minus sign or a digit. -/
theorem head_of_scan {t u : List Char} {n : Numeral} (h : scan t = .found n u) :
    ∃ c v, t = c :: v ∧ (c = '-' ∨ c.isDigit = true) := by
  match t, h with
  | [], h => cases h
  | c :: t, h =>
    refine ⟨c, t, rfl, ?_⟩
    by_cases hminus : c = '-'
    · exact .inl hminus
    rw [scan_of_ne (t := c :: t) fun heq => hminus (Option.some.inj heq), scanDigits] at h
    cases hdigit : c.isDigit with
    | true => exact .inr rfl
    | false =>
      rw [List.takeWhile_cons, hdigit] at h
      cases h

/-! ## Integers -/

theorem le_ofDigitChars (digits : List Char) (value : Nat) :
    value ≤ Nat.ofDigitChars 10 digits value := by
  induction digits generalizing value with
  | nil => exact Nat.le_refl value
  | cons c digits ih =>
    rw [Nat.ofDigitChars_cons]
    have hstep := ih (10 * value + (c.toNat - '0'.toNat))
    omega

/-- Digits whose value is within the limit are all taken on. -/
theorem gather_eq {limit : Nat} (digits : List Char) (value : Nat)
    (h : Nat.ofDigitChars 10 digits value ≤ limit) :
    gather limit value digits = (Nat.ofDigitChars 10 digits value, []) := by
  induction digits generalizing value with
  | nil => rfl
  | cons c digits ih =>
    rw [Nat.ofDigitChars_cons, Nat.mul_comm] at h ⊢
    have hstep : value * 10 + digitValue c ≤ limit := Nat.le_trans (le_ofDigitChars digits _) h
    rw [gather, if_pos hstep]
    exact ih _ h

/-- A numeral without fraction and exponent. -/
def ofDigits (negative : Bool) (digits : List Char) : Numeral :=
  ⟨negative, digits, [], none, true⟩

theorem scanDigits_numeral {digits : List Char} {n : Nat} (h : IsNumeral digits n)
    (negative : Bool) : scanDigits negative digits = .found (ofDigits negative digits) [] := by
  have hall : digits.takeWhile Char.isDigit = digits := by
    rw [← List.append_nil digits, List.takeWhile_append_of_pos h.digit]
    rfl
  have hnone : digits.dropWhile Char.isDigit = [] := by
    have hsplit := List.takeWhile_append_dropWhile (p := Char.isDigit) (l := digits)
    rw [hall] at hsplit
    exact List.append_right_eq_self.mp hsplit
  simp only [scanDigits, hall, hnone]
  split
  · exact absurd rfl h.nonempty
  · rename_i c rest
    exact absurd (h.leading rfl) (by simp)
  · rfl

theorem value?_ofDigits {digits : List Char} {n : Nat} (h : IsNumeral digits n)
    (hn : n < 0x10000000000000000) (negative : Bool) :
    (ofDigits negative digits).value? =
      if negative then
        match if n = 0 then none else Integer.ofInt? (-n) with
        | some i => some (.int i)
        | none => float true n 0
      else (Integer.ofInt? n).map .int := by
  have hgather : gather 0xffffffffffffffff 0 digits = (n, []) := by
    rw [gather_eq digits 0 (by rw [h.value]; omega), h.value]
  rw [value?, ofDigits]
  split
  · rename_i hread
    rw [hgather] at hread
    cases hread
    rfl
  · rename_i hother
    exact absurd hgather (hother n rfl)

end Numeral

namespace Number

/-- The number's own text is a numeral that reads as this number. -/
def ReadsBack (x : Number) : Prop :=
  ∃ n : Numeral, Numeral.scan x.text = .found n [] ∧ n.value? = some x

theorem integer_ofInt? (n : Integer) : Integer.ofInt? n.val = some n := by
  rw [Integer.ofInt?, dif_pos ⟨n.lower, n.upper⟩]

theorem readsBack_int (n : Integer) : (Number.int n).ReadsBack := by
  have hnumeral := isNumeral_toDigits n.val.natAbs
  have hlower := n.lower
  have hupper := n.upper
  by_cases hneg : n.val < 0
  · refine ⟨Numeral.ofDigits true (Nat.toDigits 10 n.val.natAbs), ?_, ?_⟩
    · rw [text, decimalDigits, if_pos hneg, Numeral.scan_minus]
      exact Numeral.scanDigits_numeral hnumeral true
    · have habs : (-(n.val.natAbs : Int)) = n.val := by omega
      have hne : n.val.natAbs ≠ 0 := by omega
      rw [Numeral.value?_ofDigits hnumeral (by omega), if_pos rfl, if_neg hne, habs,
        integer_ofInt?]
  · refine ⟨Numeral.ofDigits false (Nat.toDigits 10 n.val.natAbs), ?_, ?_⟩
    · rw [text, decimalDigits, if_neg hneg, Numeral.scan_of_ne]
      · exact Numeral.scanDigits_numeral hnumeral false
      · intro hminus
        have hdigit : '-'.isDigit = true := hnumeral.digit '-' (List.mem_of_head? hminus)
        exact absurd hdigit (by decide)
    · have habs : (n.val.natAbs : Int) = n.val := by omega
      rw [Numeral.value?_ofDigits hnumeral (by omega), if_neg Bool.false_ne_true, habs,
        integer_ofInt?, Option.map_some]

end Number
end PlaneBridge.Json
