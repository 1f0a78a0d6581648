import Mathlib.Data.List.Basic
import PlaneBridge.Proofs.Text.Base64

/-!
# Which texts are read as Base64

`IsReadable` says without any reference to reading which bytes are Base64: symbols of the alphabet,
no single one of them left over behind the groups of four, and padding that is left out or fills the
last group, with whitespace anywhere.  Just these are read, `exists_decode_iff`.  What carries bytes
is read as these bytes, `decode_of_carries`, since no other text carries them.

Reading collects groups of eight and looks at a group when it is full or the text ends.  `Closed`
is what has to hold of all that has been collected, group by group of four, so that the induction on
the text can carry the group that has been begun.
-/

namespace PlaneBridge.Text.Base64

/-! ## Base64 in whatever layout -/

/-- Whether bytes are Base64, laid out with whitespace.  The padding may be left out. -/
def IsReadable (text : List UInt8) : Prop :=
  ∃ symbols padding,
    text.filter (fun b => !isBlank b) =
      (symbols ++ List.replicate padding '=').map Char.toUInt8 ∧
    (∀ c ∈ symbols, c ∈ alphabet) ∧ symbols.length % 4 ≠ 1 ∧
    (padding = 0 ∨ padding ≤ 2 ∧ 4 ∣ symbols.length + padding)

/-- What has been collected of a text can be read if nothing follows: six bits for each symbol and
nothing for padding, in groups of four of which the last may be short. -/
inductive Closed : List (Option Nat) → Prop
  | nil : Closed []
  | two {a b : Nat} : Closed [some a, some b]
  | twoPadded {a b : Nat} : Closed [some a, some b, none, none]
  | three {a b c : Nat} : Closed [some a, some b, some c]
  | threePadded {a b c : Nat} : Closed [some a, some b, some c, none]
  | four {a b c d : Nat} {rest : List (Option Nat)} (h : Closed rest) :
      Closed (some a :: some b :: some c :: some d :: rest)

/-! ## Groups -/

theorem closed_of_lastBytes {group : List (Option Nat)} {bytes : List UInt8}
    (h : lastBytes group = .ok bytes) : Closed group := by
  unfold lastBytes at h
  split at h
  · exact .nil
  · exact .two
  · exact .twoPadded
  · exact .three
  · exact .threePadded
  · exact .four .nil
  · cases h

theorem Closed.lastBytes {group : List (Option Nat)} (h : Closed group)
    (hlen : group.length ≤ 4) : ∃ bytes, lastBytes group = .ok bytes := by
  cases h with
  | @four a b c d rest h =>
    have hrest : rest = [] := by
      simp only [List.length_cons] at hlen
      exact List.eq_nil_of_length_eq_zero (by omega)
    subst hrest
    exact ⟨_, rfl⟩
  | _ => exact ⟨_, rfl⟩

/-- A group of four that others follow has four symbols. -/
theorem Closed.of_long {a b c d e : Option Nat} {rest : List (Option Nat)}
    (h : Closed (a :: b :: c :: d :: e :: rest)) :
    (∃ i j k l, a = some i ∧ b = some j ∧ c = some k ∧ d = some l) ∧ Closed (e :: rest) := by
  cases h with
  | four h => exact ⟨⟨_, _, _, _, rfl, rfl, rfl, rfl⟩, h⟩

theorem exists_lastGroup_iff {group : List (Option Nat)} (hlen : group.length ≤ 8) :
    (∃ bytes, lastGroup group = .ok bytes) ↔ Closed group := by
  unfold lastGroup
  split
  case h_1 a b c d e rest =>
    have hlen' : (e :: rest).length ≤ 4 := by
      simp only [List.length_cons] at hlen ⊢
      omega
    constructor
    · rintro ⟨bytes, h⟩
      split at h
      · cases hlast : lastBytes (e :: rest) with
        | error error =>
          rw [hlast] at h
          cases h
        | ok last => exact .four (closed_of_lastBytes hlast)
      · cases h
    · intro h
      obtain ⟨⟨i, j, k, l, rfl, rfl, rfl, rfl⟩, hrest⟩ := h.of_long
      obtain ⟨last, hlast⟩ := hrest.lastBytes hlen'
      refine ⟨bytesOfFour i j k l ++ last, ?_⟩
      rw [hlast]
      rfl
  case h_2 hshort =>
    have hlen' : group.length ≤ 4 := by
      match group with
      | [] | [_] | [_, _] | [_, _, _] | [_, _, _, _] => simp
      | a :: b :: c :: d :: e :: rest => exact absurd rfl (hshort a b c d e rest)
    exact ⟨fun ⟨_, h⟩ => closed_of_lastBytes h, fun h => h.lastBytes hlen'⟩

/-- A full group that others follow has eight symbols, and what follows can be read by itself. -/
theorem closed_append_iff {group rest : List (Option Nat)} (hlen : group.length = 8)
    (hrest : rest ≠ []) :
    Closed (group ++ rest) ↔ (∃ bytes, fullGroup group = .ok bytes) ∧ Closed rest := by
  obtain ⟨x, xs, rfl⟩ := List.exists_cons_of_ne_nil hrest
  match group, hlen with
  | [a, b, c, d, e, f, g, h], _ =>
    constructor
    · intro hclosed
      obtain ⟨⟨i, j, k, l, rfl, rfl, rfl, rfl⟩, hbehind⟩ := hclosed.of_long
      have hbehind : Closed (e :: f :: g :: h :: x :: xs) := hbehind
      obtain ⟨⟨m, n, o, p, rfl, rfl, rfl, rfl⟩, hlast⟩ := hbehind.of_long
      exact ⟨⟨_, rfl⟩, hlast⟩
    · rintro ⟨⟨bytes, hfull⟩, hclosed⟩
      unfold fullGroup at hfull
      split at hfull
      case h_1 heq =>
        simp only [List.cons.injEq, and_true] at heq
        obtain ⟨rfl, rfl, rfl, rfl, rfl, rfl, rfl, rfl⟩ := heq
        exact .four (.four hclosed)
      case h_2 => cases hfull

/-! ## Texts -/

/-- Whitespace does not count. -/
theorem decodeFrom_filter (group : List (Option Nat)) (text : List UInt8) :
    decodeFrom group (text.filter fun b => !isBlank b) = decodeFrom group text := by
  induction text generalizing group with
  | nil => rfl
  | cons b rest ih =>
    cases hblank : isBlank b with
    | true =>
      rw [List.filter_cons_of_neg (by simp [hblank]), ih, decodeFrom, if_pos hblank]
    | false =>
      rw [List.filter_cons_of_pos (by simp [hblank]), decodeFrom, decodeFrom]
      simp only [ih]

/-- A byte that stands for six bits or for padding. -/
def IsLegible (b : UInt8) : Prop := isPadding b = true ∨ (bits? b).isSome = true

/-- A text without whitespace is read behind a group that has been begun if its bytes are legible
and the group can be read with what is collected of them. -/
theorem exists_decodeFrom_iff {text : List UInt8} (hblank : ∀ b ∈ text, isBlank b = false)
    {group : List (Option Nat)} (hlen : group.length ≤ 8) :
    (∃ bytes, decodeFrom group text = .ok bytes) ↔
      (∀ b ∈ text, IsLegible b) ∧ Closed (group ++ text.map bits?) := by
  induction text generalizing group with
  | nil =>
    show (∃ bytes, lastGroup group = .ok bytes) ↔ _ ∧ Closed (group ++ [])
    rw [exists_lastGroup_iff hlen, List.append_nil]
    simp
  | cons b rest ih =>
    obtain ⟨hb, hrest⟩ := List.forall_mem_cons.mp hblank
    rw [List.forall_mem_cons, decodeFrom, hb, if_neg Bool.false_ne_true, List.map_cons]
    by_cases hlegible : isPadding b = true ∨ (bits? b).isSome = true
    · rw [if_pos hlegible]
      by_cases hfull : group.length = 8
      · rw [if_pos hfull, closed_append_iff hfull (List.cons_ne_nil _ _)]
        have hnext := @ih hrest [bits? b] (by simp)
        rw [List.singleton_append] at hnext
        cases hgroup : fullGroup group with
        | error error => simp [bind, Except.bind]
        | ok bytes =>
          cases hmore : decodeFrom [bits? b] rest with
          | error error =>
            rw [hmore] at hnext
            simpa [bind, Except.bind, IsLegible, hlegible] using hnext
          | ok more =>
            rw [hmore] at hnext
            simpa [bind, Except.bind, pure, Except.pure, IsLegible, hlegible] using hnext
      · have hroom : (group ++ [bits? b]).length ≤ 8 := by
          rw [List.length_append, List.length_singleton]
          omega
        rw [if_neg hfull, ih hrest hroom, List.append_assoc, List.singleton_append]
        simp [IsLegible, hlegible]
    · rw [if_neg hlegible]
      simp [IsLegible, hlegible]

/-! ## Symbols and padding -/

/-- So many symbols and so much padding can stand together. -/
def Fits (symbols padding : Nat) : Prop :=
  symbols % 4 ≠ 1 ∧ (padding = 0 ∨ padding ≤ 2 ∧ 4 ∣ symbols + padding)

theorem Closed.exists_fits {group : List (Option Nat)} (h : Closed group) :
    ∃ (ns : List Nat) (padding : Nat),
      group = ns.map some ++ List.replicate padding none ∧ Fits ns.length padding := by
  induction h with
  | nil => exact ⟨[], 0, rfl, by decide, .inl rfl⟩
  | @two a b => exact ⟨[a, b], 0, rfl, by simp, .inl rfl⟩
  | @twoPadded a b => exact ⟨[a, b], 2, rfl, by simp, .inr ⟨by decide, by simp⟩⟩
  | @three a b c => exact ⟨[a, b, c], 0, rfl, by simp, .inl rfl⟩
  | @threePadded a b c => exact ⟨[a, b, c], 1, rfl, by simp, .inr ⟨by decide, by simp⟩⟩
  | @four a b c d rest _ ih =>
    obtain ⟨ns, padding, rfl, hfits⟩ := ih
    refine ⟨a :: b :: c :: d :: ns, padding, rfl, ?_⟩
    simp only [Fits, List.length_cons] at hfits ⊢
    omega

theorem closed_of_fits : (ns : List Nat) → (padding : Nat) → Fits ns.length padding →
    Closed (ns.map some ++ List.replicate padding none)
  | [], padding, h => by
    simp only [Fits, List.length_nil] at h
    obtain rfl : padding = 0 := by omega
    exact .nil
  | [a], padding, h => by simp [Fits] at h
  | [a, b], padding, h => by
    simp only [Fits, List.length_cons, List.length_nil] at h
    obtain rfl | rfl : padding = 0 ∨ padding = 2 := by omega
    · exact .two
    · exact .twoPadded
  | [a, b, c], padding, h => by
    simp only [Fits, List.length_cons, List.length_nil] at h
    obtain rfl | rfl : padding = 0 ∨ padding = 1 := by omega
    · exact .three
    · exact .threePadded
  | a :: b :: c :: d :: ns, padding, h => by
    refine .four (closed_of_fits ns padding ?_)
    simp only [Fits, List.length_cons] at h ⊢
    omega

theorem exists_symbol_of_bits? {b : UInt8} {n : Nat} (h : bits? b = some n) :
    ∃ c ∈ alphabet, b = c.toUInt8 := by
  have hall : ∀ i < 256, (bits? (.ofNat i)).isSome = true →
      alphabet.any (fun c => UInt8.ofNat i = c.toUInt8) = true := by
    rw [alphabet_spelled]
    decide +kernel
  have hb := hall b.toNat b.toNat_lt
  rw [UInt8.ofNat_toNat, h] at hb
  obtain ⟨c, hc, heq⟩ := List.any_eq_true.mp (hb rfl)
  exact ⟨c, hc, of_decide_eq_true heq⟩

theorem isSome_bits?_of_mem {c : Char} (h : c ∈ alphabet) : (bits? c.toUInt8).isSome = true := by
  have hall : alphabet.all (fun c => (bits? c.toUInt8).isSome) = true := by
    rw [alphabet_spelled]
    decide +kernel
  exact List.all_eq_true.mp hall c h

theorem eq_padding_of_isLegible {b : UInt8} (hb : IsLegible b) (h : bits? b = none) :
    b = '='.toUInt8 := by
  rw [IsLegible, h] at hb
  exact of_decide_eq_true (hb.resolve_right Bool.false_ne_true)

/-- Legible bytes of which symbols and padding are collected are these symbols and this padding. -/
theorem exists_symbols {bytes : List UInt8} (hlegible : ∀ b ∈ bytes, IsLegible b) {ns : List Nat}
    {padding : Nat} (h : bytes.map bits? = ns.map some ++ List.replicate padding none) :
    ∃ symbols : List Char, bytes = (symbols ++ List.replicate padding '=').map Char.toUInt8 ∧
      (∀ c ∈ symbols, c ∈ alphabet) ∧ symbols.length = ns.length := by
  induction ns generalizing bytes with
  | nil =>
    refine ⟨[], ?_, fun c hc => absurd hc List.not_mem_nil, rfl⟩
    have hall : ∀ b ∈ bytes, b = '='.toUInt8 := by
      intro b hb
      have hnone : bits? b ∈ List.map some [] ++ List.replicate padding none := by
        rw [← h]
        exact List.mem_map_of_mem hb
      exact eq_padding_of_isLegible (hlegible b hb) (List.eq_of_mem_replicate hnone)
    have hlength := congrArg List.length h
    simp only [List.length_map, List.map_nil, List.nil_append, List.length_replicate] at hlength
    rw [List.nil_append, List.map_replicate]
    exact List.eq_replicate_iff.mpr ⟨hlength, hall⟩
  | cons n ns ih =>
    cases bytes with
    | nil => cases h
    | cons b bytes =>
      obtain ⟨hhead, htail⟩ := List.cons.inj h
      obtain ⟨c, hc, rfl⟩ := exists_symbol_of_bits? hhead
      obtain ⟨symbols, rfl, hsymbols, hlength⟩ :=
        ih (fun b hb => hlegible b (List.mem_cons_of_mem _ hb)) htail
      exact ⟨c :: symbols, rfl, List.forall_mem_cons.mpr ⟨hc, hsymbols⟩,
        congrArg Nat.succ hlength⟩

/-- The bytes of symbols and padding are legible, and this is what is collected of them. -/
theorem exists_collected {symbols : List Char} (hsymbols : ∀ c ∈ symbols, c ∈ alphabet)
    (padding : Nat) :
    (∀ b ∈ (symbols ++ List.replicate padding '=').map Char.toUInt8, IsLegible b) ∧
    ∃ ns : List Nat, ns.length = symbols.length ∧
      ((symbols ++ List.replicate padding '=').map Char.toUInt8).map bits? =
        ns.map some ++ List.replicate padding none := by
  induction symbols with
  | nil =>
    refine ⟨?_, [], rfl, ?_⟩
    · intro b hb
      rw [List.nil_append, List.map_replicate] at hb
      rw [List.eq_of_mem_replicate hb]
      exact .inl rfl
    · rw [List.nil_append, List.map_replicate, List.map_replicate]
      rfl
  | cons c symbols ih =>
    obtain ⟨hc, hsymbols⟩ := List.forall_mem_cons.mp hsymbols
    obtain ⟨hlegible, ns, hlength, hcollected⟩ := ih hsymbols
    obtain ⟨n, hn⟩ := Option.isSome_iff_exists.mp (isSome_bits?_of_mem hc)
    refine ⟨List.forall_mem_cons.mpr ⟨.inr (isSome_bits?_of_mem hc), hlegible⟩, n :: ns,
      congrArg Nat.succ hlength, ?_⟩
    rw [List.cons_append, List.map_cons, List.map_cons, hn, hcollected]
    rfl

/-- Just the texts that are Base64 are read. -/
theorem exists_decode_iff (text : List UInt8) :
    (∃ bytes, decode text = .ok bytes) ↔ IsReadable text := by
  have hblank : ∀ b ∈ text.filter (fun b => !isBlank b), isBlank b = false := by
    simp [List.mem_filter]
  rw [decode, ← decodeFrom_filter, exists_decodeFrom_iff hblank (by simp), List.nil_append]
  constructor
  · rintro ⟨hlegible, hclosed⟩
    obtain ⟨ns, padding, hcollected, hfits⟩ := hclosed.exists_fits
    obtain ⟨symbols, htext, hsymbols, hlength⟩ := exists_symbols hlegible hcollected
    rw [← hlength] at hfits
    exact ⟨symbols, padding, htext, hsymbols, hfits⟩
  · rintro ⟨symbols, padding, htext, hsymbols, hfits⟩
    obtain ⟨hlegible, ns, hlength, hcollected⟩ := exists_collected hsymbols padding
    rw [htext, hcollected]
    exact ⟨hlegible, closed_of_fits ns padding (hlength ▸ hfits)⟩

/-! ## Texts that carry bytes -/

theorem sextets_injective {symbols symbols' : List Char} (hsymbols : ∀ c ∈ symbols, c ∈ alphabet)
    (hsymbols' : ∀ c ∈ symbols', c ∈ alphabet) (h : sextets symbols = sextets symbols') :
    symbols = symbols' := by
  have hlength : alphabet.length = 2 ^ 6 := by rw [alphabet_spelled]; rfl
  have hlt : ∀ {c}, c ∈ alphabet → alphabet.idxOf c < 2 ^ 6 := by
    intro c hc
    rw [← hlength]
    exact List.idxOf_lt_length_of_mem hc
  refine flatMap_bits_injective (by decide) (fun c hc => hlt (hsymbols c hc))
    (fun d hd => hlt (hsymbols' d hd)) ?_ h
  intro c hc d hnumber
  exact (List.idxOf_inj (hsymbols c hc)).mp hnumber

/-- No two texts carry the same bytes. -/
theorem Carries.text_unique {text text' : List Char} {bytes : List UInt8}
    (h : Carries text bytes) (h' : Carries text' bytes) : text = text' := by
  obtain ⟨symbols, padding, rfl, hsymbols, hpadding, hfour, hbits⟩ := h
  obtain ⟨symbols', padding', rfl, hsymbols', hpadding', hfour', hbits'⟩ := h'
  have hlength := congrArg List.length hbits
  have hlength' := congrArg List.length hbits'
  simp only [sextets, octets, length_flatMap_bits, List.length_append, List.length_replicate]
    at hlength hlength' hfour hfour'
  -- of three numbers in a row only one makes the bits of the bytes a multiple of six
  obtain rfl : padding = padding' := by omega
  rw [← hbits'] at hbits
  rw [sextets_injective hsymbols hsymbols' hbits]

/-- A text that carries bytes is read as these bytes. -/
theorem decode_of_carries {text : List Char} {bytes : List UInt8} (h : Carries text bytes) :
    decode (text.map Char.toUInt8) = .ok bytes := by
  rw [h.text_unique (carries_encode bytes)]
  exact decode_encode bytes

/-- The symbols and the padding of a text that carries bytes. -/
theorem Carries.isSymbol {text : List Char} {bytes : List UInt8} (h : Carries text bytes) :
    ∀ c ∈ text, IsSymbol c := by
  rw [h.text_unique (carries_encode bytes)]
  exact encode_isSymbol bytes

end PlaneBridge.Text.Base64
