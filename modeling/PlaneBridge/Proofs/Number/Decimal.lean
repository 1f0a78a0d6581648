import PlaneBridge.Number.Decimal

/-!
# Decimal text is exact

A text is the decimal spelling of an integer if it is a minus sign, for a negative one only, and
then a numeral: digits alone, at least one, no zero before others, with the absolute value of the
integer as their value in base ten.  `isDecimal_decimal` says that `decimal` spells every integer
so.

A text spells one integer at most, by `IsDecimal.unique`, so different integers have different
spellings.
-/

namespace PlaneBridge

/-- Digits that are the numeral of a number in base ten. -/
structure IsNumeral (digits : List Char) (n : Nat) : Prop where
  digit : ∀ c ∈ digits, c.isDigit = true
  nonempty : digits ≠ []
  leading : digits.head? = some '0' → digits = ['0']
  value : Nat.ofDigitChars 10 digits 0 = n

/-- The text is the decimal spelling of the integer. -/
def IsDecimal (text : String) (n : Int) : Prop :=
  ∃ digits, text.toList = (if n < 0 then ['-'] else []) ++ digits ∧ IsNumeral digits n.natAbs

/-- A numeral begins with a zero only if it is zero. -/
theorem toDigits_eq_zero_of_head? (n : Nat) (h : (Nat.toDigits 10 n).head? = some '0') :
    Nat.toDigits 10 n = ['0'] := by
  -- All digits but the last are the numeral of a tenth, so a leading zero would be a tenth of zero.
  induction n using Nat.strongRecOn with
  | ind n ih =>
    by_cases hlt : n < 10
    · rw [Nat.toDigits_of_lt_base hlt] at h ⊢
      rw [List.head?_cons, Option.some_inj] at h
      rw [h]
    · have hle : 10 ≤ n := Nat.le_of_not_lt hlt
      have hsplit : Nat.toDigits 10 n = Nat.toDigits 10 (n / 10) ++ [Nat.digitChar (n % 10)] :=
        Nat.toDigits_of_base_le (by omega) hle
      obtain ⟨first, rest, hcons⟩ := List.exists_cons_of_ne_nil
        (Nat.toDigits_ne_nil : Nat.toDigits 10 (n / 10) ≠ [])
      have hfirst : (Nat.toDigits 10 (n / 10)).head? = some '0' := by
        rw [hsplit, hcons] at h
        rw [hcons]
        exact h
      have htenth : Nat.toDigits 10 (n / 10) = ['0'] := ih (n / 10) (by omega) hfirst
      have hvalue : n / 10 = Nat.ofDigitChars 10 ['0'] 0 := by
        rw [← htenth, Nat.ofDigitChars_ten_toDigits]
      have hzero : Nat.ofDigitChars 10 ['0'] 0 = 0 := by decide
      omega

theorem isNumeral_toDigits (n : Nat) : IsNumeral (Nat.toDigits 10 n) n where
  digit := fun _ hc => Nat.isDigit_of_mem_toDigits (by omega) (by omega) hc
  nonempty := Nat.toDigits_ne_nil
  leading := toDigits_eq_zero_of_head? n
  value := Nat.ofDigitChars_ten_toDigits

theorem isDecimal_decimal (n : Int) : IsDecimal (decimal n) n := by
  refine ⟨Nat.toDigits 10 n.natAbs, ?_, isNumeral_toDigits n.natAbs⟩
  rw [decimal, String.toList_ofList, decimalDigits]
  by_cases hneg : n < 0
  · rw [if_pos hneg, if_pos hneg]
    rfl
  · rw [if_neg hneg, if_neg hneg]
    rfl

example : decimal Int32.minValue.toInt = "-2147483648" := by decide +kernel

/-- The sign decides, since no digit is a minus sign, and then the values do. -/
theorem IsDecimal.unique {text : String} {m n : Int} (hm : IsDecimal text m)
    (hn : IsDecimal text n) : m = n := by
  obtain ⟨digits, hdigits, hnumeral⟩ := hm
  obtain ⟨digits', hdigits', hnumeral'⟩ := hn
  have hsame := hdigits.symm.trans hdigits'
  have hminus : ∀ {signed unsigned : List Char} {k : Nat}, IsNumeral unsigned k →
      '-' :: signed ≠ unsigned := by
    intro signed unsigned k h heq
    have hdigit : '-'.isDigit = true := h.digit '-' (heq ▸ List.mem_cons_self)
    exact absurd hdigit (by decide)
  have hvalue : digits = digits' → m.natAbs = n.natAbs := by
    rintro rfl
    exact hnumeral.value.symm.trans hnumeral'.value
  by_cases hm : m < 0 <;> by_cases hn : n < 0
  · rw [if_pos hm, if_pos hn] at hsame
    have habs := hvalue (List.append_cancel_left hsame)
    omega
  · rw [if_pos hm, if_neg hn] at hsame
    exact absurd hsame (hminus hnumeral')
  · rw [if_neg hm, if_pos hn] at hsame
    exact absurd hsame.symm (hminus hnumeral)
  · rw [if_neg hm, if_neg hn] at hsame
    have habs := hvalue hsame
    omega

theorem decimal_injective : Function.Injective decimal := by
  intro m n h
  have hm := isDecimal_decimal m
  rw [h] at hm
  exact hm.unique (isDecimal_decimal n)

end PlaneBridge
