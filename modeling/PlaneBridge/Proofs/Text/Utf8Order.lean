import Mathlib.Algebra.Ring.Nat
import PlaneBridge.Proofs.Text.Utf8

/-!
# Texts in the order of their bytes

Texts are ordered by their code points, and their bytes are ordered the same way, by
`bytes_lt_of_lt`.  The encoding keeps the order of characters since a character of more bytes begins
with a greater byte, and of the same number of bytes the leading ones hold the leading digits.
-/

namespace PlaneBridge.Text.Utf8

section

variable {a b : Nat} {xs ys : List UInt8}

theorem cons_lt_of_lt (h : a < b) (hb : b < 256) :
    UInt8.ofNat a :: xs < UInt8.ofNat b :: ys := by
  refine List.cons_lt_cons_iff.mpr (.inl (UInt8.lt_iff_toNat_lt.mpr ?_))
  rw [UInt8.toNat_ofNat_of_lt' (Nat.lt_trans h hb), UInt8.toNat_ofNat_of_lt' hb]
  exact h

theorem cons_lt_of_eq (hab : a = b) (h : xs < ys) : UInt8.ofNat a :: xs < UInt8.ofNat b :: ys :=
  List.cons_lt_cons_iff.mpr (.inr ⟨congrArg UInt8.ofNat hab, h⟩)

end

/-! ## Continuations -/

/-- The last bytes of a code point, each of which holds six bits. -/
def continuation (v : Nat) : (count : Nat) → List UInt8 → List UInt8
  | 0, xs => xs
  | count + 1, xs => UInt8.ofNat (v / 64 ^ count % 64 + 128) :: continuation v count xs

/-- Code points that agree before their continuations differ in them. -/
theorem continuation_lt {v w : Nat} (h : v < w) {count : Nat}
    (hsame : v / 64 ^ count = w / 64 ^ count) (xs ys : List UInt8) :
    continuation v count xs < continuation w count ys := by
  induction count with
  | zero =>
    rw [Nat.pow_zero, Nat.div_one, Nat.div_one] at hsame
    omega
  | succ count ih =>
    rw [Nat.pow_succ, ← Nat.div_div_eq_div_mul, ← Nat.div_div_eq_div_mul] at hsame
    have hle : v / 64 ^ count ≤ w / 64 ^ count := Nat.div_le_div_right (Nat.le_of_lt h)
    rw [continuation, continuation]
    by_cases hnext : v / 64 ^ count = w / 64 ^ count
    · exact cons_lt_of_eq (by rw [hnext]) (ih hnext)
    · exact cons_lt_of_lt (by omega) (by omega)

/-! ## Characters -/

/-- How many bytes a code point has behind the first one. -/
def extra (v : Nat) : Nat :=
  if v ≤ 0x7f then 0 else if v ≤ 0x7ff then 1 else if v ≤ 0xffff then 2 else 3

/-- The first byte of a code point: a mark for the number of bytes, and the bits that are left. -/
def first (v : Nat) : Nat :=
  v / 64 ^ extra v +
    match extra v with
    | 0 => 0
    | 1 => 0xc0
    | 2 => 0xe0
    | _ => 0xf0

theorem extra_cases (v : Nat) :
    (extra v = 0 ∧ v ≤ 0x7f ∧ first v = v) ∨
      (extra v = 1 ∧ 0x7f < v ∧ v ≤ 0x7ff ∧ first v = v / 64 + 0xc0) ∨
      (extra v = 2 ∧ 0x7ff < v ∧ v ≤ 0xffff ∧ first v = v / 4096 + 0xe0) ∨
      (extra v = 3 ∧ 0xffff < v ∧ first v = v / 262144 + 0xf0) := by
  rw [first, extra]
  by_cases hone : v ≤ 0x7f
  · simp [hone]
  by_cases htwo : v ≤ 0x7ff
  · simp [hone, htwo]
    omega
  by_cases hthree : v ≤ 0xffff
  · simp [hone, htwo, hthree]
    omega
  · simp [hone, htwo, hthree]
    omega

theorem first_lt_size {v : Nat} (h : v < 0x110000) : first v < 256 := by
  have hcases := extra_cases v
  omega

theorem first_lt {v w : Nat} (h : v < w) (hextra : extra v ≠ extra w) (hw : w < 0x110000) :
    first v < first w := by
  have hv := extra_cases v
  have hw := extra_cases w
  omega

theorem toNat_lt (c : Char) : c.toNat < 0x110000 := by
  rcases c.valid with hc | ⟨_, hc⟩
  · exact Nat.lt_trans hc (by decide)
  · exact hc

theorem encode_append (c : Char) (xs : List UInt8) :
    String.utf8EncodeChar c ++ xs =
      UInt8.ofNat (first c.toNat) :: continuation c.toNat (extra c.toNat) xs := by
  have hlt := toNat_lt c
  rw [String.utf8EncodeChar, Char.toNat_val]
  -- the bits of the first byte are below the mark already
  rcases extra_cases c.toNat with ⟨he, hv, hf⟩ | ⟨he, hone, hv, hf⟩ | ⟨he, htwo, hv, hf⟩ |
    ⟨he, hthree, hf⟩
  · rw [he, hf, if_pos hv]
    rfl
  · have hbits : c.toNat / 64 % 32 = c.toNat / 64 := by omega
    rw [he, hf, if_neg (by omega), if_pos hv, hbits]
    simp only [continuation, Nat.pow_zero, Nat.div_one]
    rfl
  · have hbits : c.toNat / 4096 % 16 = c.toNat / 4096 := by omega
    rw [he, hf, if_neg (by omega), if_neg (by omega), if_pos hv, hbits]
    simp only [continuation, Nat.pow_zero, Nat.div_one]
    rfl
  · have hbits : c.toNat / 262144 % 8 = c.toNat / 262144 := by omega
    rw [he, hf, if_neg (by omega), if_neg (by omega), if_neg (by omega), hbits]
    simp only [continuation, Nat.pow_zero, Nat.div_one]
    rfl

/-- The bytes of a lesser character are less, whatever stands behind both. -/
theorem encode_append_lt {c d : Char} (h : c < d) (xs ys : List UInt8) :
    String.utf8EncodeChar c ++ xs < String.utf8EncodeChar d ++ ys := by
  have hlt : c.toNat < d.toNat := h
  have hd := toNat_lt d
  rw [encode_append, encode_append]
  by_cases hextra : extra c.toNat = extra d.toNat
  · by_cases hbits : c.toNat / 64 ^ extra d.toNat = d.toNat / 64 ^ extra d.toNat
    · rw [hextra]
      exact cons_lt_of_eq (by rw [first, first, hextra, hbits]) (continuation_lt hlt hbits xs ys)
    · have hle := Nat.div_le_div_right (c := 64 ^ extra d.toNat) (Nat.le_of_lt hlt)
      refine cons_lt_of_lt ?_ (first_lt_size hd)
      rw [first, first, hextra]
      omega
  · exact cons_lt_of_lt (first_lt hlt hextra hd) (first_lt_size hd)

/-! ## Texts -/

theorem flatMap_encode_lt {cs ds : List Char} (h : cs < ds) :
    cs.flatMap String.utf8EncodeChar < ds.flatMap String.utf8EncodeChar := by
  induction cs generalizing ds with
  | nil =>
    cases ds with
    | nil => exact absurd h (List.lt_irrefl [])
    | cons d ds =>
      rw [List.flatMap_nil, List.flatMap_cons, encode_append]
      exact List.nil_lt_cons _ _
  | cons c cs ih =>
    cases ds with
    | nil => exact absurd h (List.not_lt_nil _)
    | cons d ds =>
      rw [List.flatMap_cons, List.flatMap_cons]
      rcases List.cons_lt_cons_iff.mp h with hlt | ⟨rfl, hrest⟩
      · exact encode_append_lt hlt _ _
      · exact List.append_left_lt (ih hrest)

/-- Texts are ordered as their bytes are. -/
theorem bytes_lt_of_lt {s t : String} (h : s < t) : s.toUTF8.toList < t.toUTF8.toList := by
  rw [bytes_eq_flatMap, bytes_eq_flatMap]
  exact flatMap_encode_lt h

end PlaneBridge.Text.Utf8
