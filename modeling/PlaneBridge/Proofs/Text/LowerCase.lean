import Mathlib.Data.List.Forall2

/-!
# Lower case

Unicode lower-cases a text character by character.  What becomes of a character beyond ASCII may be
more than one character and may hang on its place in the text, but of the letters and digits of
ASCII only `i` and `k` ever come of one: of the capital I with a dot and of the Kelvin sign.

`LowerCasing` is any way of lower-casing of which this is true.  For a word of other letters and
digits it is no matter which one is taken, nor whether characters beyond ASCII are lower-cased at
all: `LowerCasing.lower_eq_iff`.
-/

namespace PlaneBridge.Text

/-- What may become of a character. -/
inductive Lowers (c : Char) : List Char → Prop
  | ascii (hascii : c.toNat < 128) : Lowers c [c.toLower]
  | beyond {piece : List Char} (hbeyond : 128 ≤ c.toNat) (hne : piece ≠ [])
      (hforeign : ∀ d ∈ piece, d.isAlphanum = true → d = 'i' ∨ d = 'k') : Lowers c piece

structure LowerCasing where
  lower : String → String
  lowers : ∀ s : String, ∃ pieces : List (List Char),
    List.Forall₂ Lowers s.toList pieces ∧ (lower s).toList = pieces.flatten

/-- Letters and digits of ASCII that come of no character beyond it. -/
def IsPlainWord (word : List Char) : Prop :=
  ∀ d ∈ word, d.isAlphanum = true ∧ d ≠ 'i' ∧ d ≠ 'k'

-- the instance is named since the search may come upon the one that goes through all characters
instance (word : List Char) : Decidable (IsPlainWord word) :=
  List.decidableBAll (fun d : Char => d.isAlphanum = true ∧ d ≠ 'i' ∧ d ≠ 'k') word

theorem le_of_isUpper {c : Char} (h : c.isUpper = true) : c.toNat ≤ 'Z'.toNat :=
  (of_decide_eq_true h).2

theorem le_of_isLower {c : Char} (h : c.isLower = true) : c.toNat ≤ 'z'.toNat :=
  of_decide_eq_true (Bool.and_eq_true_iff.mp h).2

theorem le_of_isDigit {c : Char} (h : c.isDigit = true) : c.toNat ≤ '9'.toNat :=
  of_decide_eq_true (Bool.and_eq_true_iff.mp h).2

theorem lt_of_isAlphanum {c : Char} (h : c.isAlphanum = true) : c.toNat < 128 := by
  rcases Bool.or_eq_true_iff.mp h with halpha | hdigit
  · rcases Bool.or_eq_true_iff.mp halpha with hupper | hlower
    · exact Nat.lt_of_le_of_lt (le_of_isUpper hupper) (by decide)
    · exact Nat.lt_of_le_of_lt (le_of_isLower hlower) (by decide)
  · exact Nat.lt_of_le_of_lt (le_of_isDigit hdigit) (by decide)

theorem toLower_of_beyond {c : Char} (h : 128 ≤ c.toNat) : c.toLower = c := by
  have hupper : ¬ (c.val ≥ 'A'.val ∧ c.val ≤ 'Z'.val) := by
    rintro ⟨-, hle⟩
    have hascii : c.toNat < 128 := Nat.lt_of_le_of_lt hle (by decide)
    omega
  exact dif_neg hupper

/-- Lower-casing ASCII alone. -/
def LowerCasing.ascii : LowerCasing where
  lower s := s.map Char.toLower
  lowers s := by
    refine ⟨s.toList.map fun c => [c.toLower], ?_, ?_⟩
    · rw [List.forall₂_map_right_iff, List.forall₂_same]
      intro c _
      rcases Nat.lt_or_ge c.toNat 128 with hascii | hbeyond
      · exact .ascii hascii
      · refine .beyond hbeyond (List.cons_ne_nil _ _) fun d hd halphanum => ?_
        rw [List.mem_singleton.mp hd, toLower_of_beyond hbeyond] at halphanum
        have hascii := lt_of_isAlphanum halphanum
        omega
    · rw [String.toList_map]
      induction s.toList with
      | nil => rfl
      | cons c rest ih => simp [ih]

theorem flatten_eq_iff {s : List Char} {pieces : List (List Char)}
    (h : List.Forall₂ Lowers s pieces) {word : List Char} (hword : IsPlainWord word) :
    pieces.flatten = word ↔ s.map Char.toLower = word := by
  -- the word is generalized: behind its first letter there is a shorter one
  induction h generalizing word with
  | nil => exact Iff.rfl
  | @cons c piece s pieces hc _ ih =>
    rw [List.flatten_cons, List.map_cons]
    cases hc with
    | ascii hascii =>
      cases word with
      | nil => simp
      | cons d word =>
        have hrest : IsPlainWord word := fun x hx => hword x (List.mem_cons_of_mem d hx)
        rw [List.singleton_append, List.cons.injEq, List.cons.injEq, ih hrest]
    | beyond hbeyond hne hforeign =>
      obtain ⟨d, piece, rfl⟩ := List.exists_cons_of_ne_nil hne
      constructor
      · -- what comes of the character would be a letter of the word
        rintro rfl
        have hd : d ∈ d :: piece ++ pieces.flatten := List.mem_cons_self
        obtain ⟨halphanum, hi, hk⟩ := hword d hd
        rcases hforeign d List.mem_cons_self halphanum with rfl | rfl
        · exact absurd rfl hi
        · exact absurd rfl hk
      · rintro rfl
        obtain ⟨halphanum, -⟩ := hword c.toLower List.mem_cons_self
        rw [toLower_of_beyond hbeyond] at halphanum
        have hascii := lt_of_isAlphanum halphanum
        omega

/-- Whether a text is a plain word in lower case does not hang on the way of lower-casing. -/
theorem LowerCasing.lower_eq_iff (lowering : LowerCasing) {word : String}
    (hword : IsPlainWord word.toList) (s : String) :
    lowering.lower s = word ↔ s.map Char.toLower = word := by
  obtain ⟨pieces, hpieces, hlower⟩ := lowering.lowers s
  rw [← String.toList_inj, ← String.toList_inj, hlower, String.toList_map]
  exact flatten_eq_iff hpieces hword

end PlaneBridge.Text
