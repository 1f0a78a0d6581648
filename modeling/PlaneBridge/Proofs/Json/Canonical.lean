import PlaneBridge.Json.Printer
import PlaneBridge.Proofs.Json.FreeForm
import PlaneBridge.Proofs.Json.Text
import PlaneBridge.Proofs.Number.Decimal
import PlaneBridge.Proofs.Text.Utf8Order

/-!
# Canonical texts

`Canonical` is the grammar of the texts that are written for values read free-form: no blank stands
outside a string, nothing is escaped in one that does not have to be, and the names of every object
are strictly increasing by their UTF-8 bytes.  By `Value.canonical_compact` the order of names that
a value `Fits` with is all that is asked of it.
-/

namespace PlaneBridge.Json

/-- A character as it stands in a string, escaped if and only if it has to be. -/
inductive Escaped : Char → List Char → Prop
  | plain {c : Char} (hmark : c ≠ '"') (hbackslash : c ≠ '\\') (hspace : ¬ c < ' ') : Escaped c [c]
  | short {c e : Char} (hmust : c = '"' ∨ c = '\\' ∨ c < ' ') (h : Text.shortEscape? e = some c) :
      Escaped c ['\\', e]
  | unit {c h₁ h₂ h₃ h₄ : Char} (hmust : c < ' ') (h : Text.hexUnit? h₁ h₂ h₃ h₄ = some c.toNat) :
      Escaped c ['\\', 'u', h₁, h₂, h₃, h₄]

/-- The string stands between quotation marks, character by character. -/
def Quoted (s : String) (t : List Char) : Prop :=
  ∃ parts, List.Forall₂ Escaped s.toList parts ∧ t = '"' :: (parts.flatten ++ ['"'])

/-- A character that a number is written with. -/
def InNumber (c : Char) : Prop := c.isDigit = true ∨ c ∈ ['-', '+', '.', 'e']

/-- The names are strictly increasing by their bytes. -/
abbrev BytesIncreasing (names : List String) : Prop :=
  names.Pairwise fun a b => a.toUTF8.toList < b.toUTF8.toList

mutual

/-- The text is one of the canonical ones. -/
inductive Canonical : List Char → Prop
  | null : Canonical ['n', 'u', 'l', 'l']
  | yes : Canonical ['t', 'r', 'u', 'e']
  | no : Canonical ['f', 'a', 'l', 's', 'e']
  | num {t : List Char} (hne : t ≠ []) (h : ∀ c ∈ t, InNumber c) : Canonical t
  | str {s : String} {t : List Char} (h : Quoted s t) : Canonical t
  | noItems : Canonical ['[', ']']
  | arr {t : List Char} (h : CanonicalItems t) : Canonical ('[' :: t)
  | noMembers : Canonical ['{', '}']
  | obj {names : List String} {t : List Char} (hnames : BytesIncreasing names)
      (h : CanonicalMembers names t) : Canonical ('{' :: t)

/-- Elements, one at least, and the bracket behind them. -/
inductive CanonicalItems : List Char → Prop
  | last {t : List Char} (h : Canonical t) : CanonicalItems (t ++ [']'])
  | cons {t u : List Char} (h : Canonical t) (hrest : CanonicalItems u) :
      CanonicalItems (t ++ ',' :: u)

/-- Members of these names, one at least, and the brace behind them. -/
inductive CanonicalMembers : List String → List Char → Prop
  | last {name : String} {s t : List Char} (hname : Quoted name s) (h : Canonical t) :
      CanonicalMembers [name] (s ++ ':' :: t ++ ['}'])
  | cons {name : String} {names : List String} {s t u : List Char} (hname : Quoted name s)
      (h : Canonical t) (hrest : CanonicalMembers names u) :
      CanonicalMembers (name :: names) (s ++ ':' :: t ++ ',' :: u)

end

/-! ## Strings -/

theorem escaped_escape (c : Char) : Escaped c (Text.escape c) := by
  by_cases hmark : c = '"'
  · subst hmark
    exact .short (.inl rfl) (by decide)
  by_cases hbackslash : c = '\\'
  · subst hbackslash
    exact .short (.inr (.inl rfl)) (by decide)
  by_cases hshort : c ∈ ['\x08', '\x0c', '\n', '\r', '\t']
  · simp only [List.mem_cons, List.not_mem_nil, or_false] at hshort
    rcases hshort with rfl | rfl | rfl | rfl | rfl <;>
      exact .short (.inr (.inr (by decide))) (by decide)
  simp only [List.mem_cons, List.not_mem_nil, or_false, not_or] at hshort
  obtain ⟨hb, hf, hn, hr, ht⟩ := hshort
  by_cases hspace : c < ' '
  · simp only [Text.escape, hmark, hbackslash, hb, hf, hn, hr, ht, hspace, if_false, if_true]
    exact .unit hspace (Text.hexUnit?_hexDigit (Text.lt_of_lt_space hspace))
  · simp only [Text.escape, hmark, hbackslash, hb, hf, hn, hr, ht, hspace, if_false]
    exact .plain hmark hbackslash hspace

theorem quoted_quote (s : String) : Quoted s (Text.quote s.toList) := by
  refine ⟨s.toList.map Text.escape, ?_, rfl⟩
  rw [List.forall₂_map_right_iff, List.forall₂_same]
  exact fun c _ => escaped_escape c

/-! ## Numbers -/

theorem inNumber_toDigits (n : Nat) : ∀ c ∈ Nat.toDigits 10 n, InNumber c := fun c hc =>
  .inl ((isNumeral_toDigits n).digit c hc)

theorem inNumber_zeros (count : Nat) : ∀ c ∈ List.replicate count '0', InNumber c := fun c hc => by
  rw [List.eq_of_mem_replicate hc]
  exact .inl (by decide)

theorem inNumber_point : InNumber '.' := .inr (by decide)

namespace Number

variable {digits : List Char} (h : ∀ c ∈ digits, InNumber c)

include h

theorem inNumber_positional (exponent : Int) : ∀ c ∈ positional digits exponent, InNumber c := by
  have hzero : InNumber '0' := .inl (by decide)
  rw [positional]
  split
  · rw [List.forall_mem_append, List.forall_mem_append, List.forall_mem_cons,
      List.forall_mem_singleton]
    exact ⟨⟨h, inNumber_zeros _⟩, inNumber_point, hzero⟩
  split
  · rw [List.forall_mem_append, List.forall_mem_cons]
    exact ⟨fun c hc => h c (List.mem_of_mem_take hc), inNumber_point, fun c hc =>
      h c (List.mem_of_mem_drop hc)⟩
  · rw [List.cons_append, List.cons_append, List.forall_mem_cons, List.forall_mem_cons,
      List.forall_mem_append]
    exact ⟨hzero, inNumber_point, inNumber_zeros _, h⟩

theorem inNumber_scientific (exponent : Int) :
    ∀ c ∈ scientific floatStyle digits exponent, InNumber c := by
  have hmark : InNumber 'e' := .inr (by decide)
  have hsign : ∀ down : Prop, [Decidable down] → InNumber (if down then '-' else '+') := by
    intro down _
    split
    · exact .inr (by decide)
    · exact .inr (by decide)
  rw [scientific.eq_def]
  simp only [List.forall_mem_append, List.forall_mem_cons]
  refine ⟨?_, hmark, hsign _, inNumber_toDigits _⟩
  match digits, h with
  | [], _ => exact fun c hc => absurd hc List.not_mem_nil
  | [d], h => exact h
  | d :: e :: rest, h =>
    obtain ⟨hd, hrest⟩ := List.forall_mem_cons.mp h
    exact List.forall_mem_cons.mpr ⟨hd, List.forall_mem_cons.mpr ⟨inNumber_point, hrest⟩⟩

omit h

theorem inNumber_text (x : Number) : ∀ c ∈ x.text, InNumber c := by
  have hminus : InNumber '-' := .inr (by decide)
  cases x with
  | int n =>
    rw [text, decimalDigits]
    split
    · exact List.forall_mem_cons.mpr ⟨hminus, inNumber_toDigits _⟩
    · exact inNumber_toDigits _
  | float x =>
    have hmagnitude : ∀ inside : Prop, [Decidable inside] → ∀ c ∈ (if inside then
        positional (Nat.toDigits 10 x.shortest.digits) x.shortest.exponent
      else scientific floatStyle (Nat.toDigits 10 x.shortest.digits) x.shortest.exponent),
        InNumber c := by
      intro inside _
      split
      · exact inNumber_positional (inNumber_toDigits _) _
      · exact inNumber_scientific (inNumber_toDigits _) _
    rw [text, floatText]
    split
    · exact List.forall_mem_cons.mpr ⟨hminus, hmagnitude _⟩
    · exact hmagnitude _

theorem text_ne_nil (x : Number) : x.text ≠ [] := by
  cases x with
  | int n =>
    rw [text, decimalDigits]
    split
    · exact List.cons_ne_nil _ _
    · exact Nat.toDigits_ne_nil
  | float x =>
    rw [text, floatText]
    split
    · exact List.cons_ne_nil _ _
    split
    · simp only [positional]
      split
      · exact List.append_ne_nil_of_right_ne_nil _ (List.cons_ne_nil _ _)
      split
      · exact List.append_ne_nil_of_right_ne_nil _ (List.cons_ne_nil _ _)
      · exact List.cons_ne_nil _ _
    · rw [scientific.eq_def]
      exact List.append_ne_nil_of_right_ne_nil _ (List.cons_ne_nil _ _)

end Number

/-! ## Values -/

variable {nesting : Option Nat}

theorem bytesIncreasing_names {β : Type} {members : Entries β} (h : members.Increasing) :
    BytesIncreasing (members.map (·.1)) :=
  List.pairwise_map.mpr (h.imp Text.Utf8.bytes_lt_of_lt)

mutual

theorem Value.canonical_compact {depth : Nat} : (v : Value) → v.Fits nesting depth →
    Canonical v.compact
  | .null, _ => .null
  | .bool true, _ => .yes
  | .bool false, _ => .no
  | .num x, _ => .num x.text_ne_nil x.inNumber_text
  | .str s, _ => .str (quoted_quote s)
  | .arr [], _ => .noItems
  | .arr (v :: rest), h => .arr (canonicalItems_compact (v :: rest) (List.cons_ne_nil v rest) h.2)
  | .obj [], _ => .noMembers
  | .obj (m :: rest), h =>
    .obj (bytesIncreasing_names h.2.1)
      (canonicalMembers_compact (m :: rest) (List.cons_ne_nil m rest) h.2.2)

theorem canonicalItems_compact {depth : Nat} : (items : List Value) → items ≠ [] →
    ItemsFit nesting depth items → CanonicalItems (compactItems items)
  | [v], _, h => .last (v.canonical_compact h.1)
  | v :: w :: rest, _, h =>
    .cons (v.canonical_compact h.1)
      (canonicalItems_compact (w :: rest) (List.cons_ne_nil w rest) h.2)

theorem canonicalMembers_compact {depth : Nat} : (members : List (String × Value)) →
    members ≠ [] → MembersFit nesting depth members →
    CanonicalMembers (members.map (·.1)) (compactMembers members)
  | [(name, v)], _, h => .last (quoted_quote name) (v.canonical_compact h.1)
  | (name, v) :: m :: rest, _, h =>
    .cons (quoted_quote name) (v.canonical_compact h.1)
      (canonicalMembers_compact (m :: rest) (List.cons_ne_nil m rest) h.2)

end

end PlaneBridge.Json
