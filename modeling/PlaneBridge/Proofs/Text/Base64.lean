import Mathlib.Algebra.Ring.Nat
import PlaneBridge.Text.Base64

/-!
# Base64 read back

`Carries` says without any reference to writing when a text is the padded Base64 of bytes: its
symbols stand for six bits each, and these bits are the bits of the bytes, eight of each, with zero
bits in place of the padding.  What is written of bytes carries them, `carries_encode`, no text
carries two different lists of bytes, `Carries.unique`, and `decode` finds what has been written,
`decode_encode`.

Writing takes bytes three at a time and reading takes characters eight at a time.  Both come down to
`bits_three` and `bytesOfFour_sextets`, the same twenty-four bits cut in two ways; where bytes are
missing at the end, these are used with zero for a byte.
-/

namespace PlaneBridge.Text.Base64

/-! ## Bits -/

/-- The lowest bits of a number, so many of them, the highest one first. -/
def bits : Nat → Nat → List Bool
  | 0, _ => []
  | count + 1, n => n.testBit count :: bits count n

theorem length_bits (count n : Nat) : (bits count n).length = count := by
  induction count with
  | zero => rfl
  | succ count ih => exact congrArg Nat.succ ih

theorem bits_append (high low n : Nat) :
    bits (high + low) n = bits high (n / 2 ^ low) ++ bits low n := by
  induction high with
  | zero => rw [Nat.zero_add]; rfl
  | succ high ih =>
    rw [Nat.succ_add, bits, bits, ih, Nat.testBit_div_two_pow, List.cons_append]

theorem bits_eq_iff {count m n : Nat} :
    bits count m = bits count n ↔ ∀ i < count, m.testBit i = n.testBit i := by
  induction count with
  | zero => simp [bits]
  | succ count ih => rw [bits, bits, List.cons.injEq, ih, Nat.forall_lt_succ_right, and_comm]

theorem bits_congr {count m n : Nat} (h : m % 2 ^ count = n % 2 ^ count) :
    bits count m = bits count n := by
  refine bits_eq_iff.mpr fun i hi => ?_
  have hbit := congrArg (Nat.testBit · i) h
  simpa only [Nat.testBit_mod_two_pow, hi, decide_true, Bool.true_and] using hbit

theorem bits_injective {count m n : Nat} (hm : m < 2 ^ count) (hn : n < 2 ^ count)
    (h : bits count m = bits count n) : m = n := by
  refine Nat.eq_of_testBit_eq fun i => ?_
  by_cases hi : i < count
  · exact bits_eq_iff.mp h i hi
  · have hle : 2 ^ count ≤ 2 ^ i := Nat.pow_le_pow_right (by decide) (by omega)
    rw [Nat.testBit_lt_two_pow (Nat.lt_of_lt_of_le hm hle),
      Nat.testBit_lt_two_pow (Nat.lt_of_lt_of_le hn hle)]

theorem length_flatMap_bits {α : Type} (count : Nat) (number : α → Nat) (xs : List α) :
    (xs.flatMap fun a => bits count (number a)).length = count * xs.length := by
  induction xs with
  | nil => rfl
  | cons a xs ih =>
    rw [List.flatMap_cons, List.length_append, length_bits, ih, List.length_cons, Nat.mul_succ,
      Nat.add_comm]

/-- Things with numbers of so many bits are known from these bits one after the other. -/
theorem flatMap_bits_injective {α : Type} {count : Nat} (hcount : 0 < count) {number : α → Nat}
    {xs ys : List α} (hxs : ∀ a ∈ xs, number a < 2 ^ count) (hys : ∀ b ∈ ys, number b < 2 ^ count)
    (hnumber : ∀ a ∈ xs, ∀ b, number a = number b → a = b)
    (h : (xs.flatMap fun a => bits count (number a)) = ys.flatMap fun b => bits count (number b)) :
    xs = ys := by
  have hlength : xs.length = ys.length := by
    have hbits := congrArg List.length h
    rw [length_flatMap_bits, length_flatMap_bits] at hbits
    exact Nat.eq_of_mul_eq_mul_left hcount hbits
  induction xs generalizing ys with
  | nil => exact (List.eq_nil_of_length_eq_zero hlength.symm).symm
  | cons a xs ih =>
    cases ys with
    | nil => cases hlength
    | cons b ys =>
      obtain ⟨ha, hxs⟩ := List.forall_mem_cons.mp hxs
      obtain ⟨hb, hys⟩ := List.forall_mem_cons.mp hys
      obtain ⟨hinjective, hnumber⟩ := List.forall_mem_cons.mp hnumber
      have hsize : (bits count (number a)).length = (bits count (number b)).length := by
        rw [length_bits, length_bits]
      obtain ⟨hhead, htail⟩ := List.append_inj h hsize
      rw [hinjective b (bits_injective ha hb hhead),
        ih hxs hys hnumber htail (Nat.succ.inj hlength)]

/-- Four times six bits are the bits of three bytes. -/
theorem bits_three (a b c : UInt8) :
    bits 6 (a.toNat / 4) ++ bits 6 (a.toNat * 16 + b.toNat / 16) ++
        bits 6 (b.toNat * 4 + c.toNat / 64) ++ bits 6 c.toNat =
      bits 8 a.toNat ++ bits 8 b.toNat ++ bits 8 c.toNat := by
  have ha := a.toNat_lt
  have hb := b.toNat_lt
  have hc := c.toNat_lt
  -- Both sides are the lowest bits of one number, which has the three bytes for its digits.
  obtain ⟨n, hn⟩ : ∃ n, n = a.toNat * 65536 + b.toNat * 256 + c.toNat := ⟨_, rfl⟩
  have hfirst : bits 6 (a.toNat / 4) = bits 6 (n / 2 ^ 18) := bits_congr (by omega)
  have hsecond : bits 6 (a.toNat * 16 + b.toNat / 16) = bits 6 (n / 2 ^ 12) :=
    bits_congr (by omega)
  have hthird : bits 6 (b.toNat * 4 + c.toNat / 64) = bits 6 (n / 2 ^ 6) := bits_congr (by omega)
  have hfourth : bits 6 c.toNat = bits 6 n := bits_congr (by omega)
  have hhigh : bits 8 (n / 2 ^ 16) = bits 8 a.toNat := bits_congr (by omega)
  have hmiddle : bits 8 (n / 2 ^ 8) = bits 8 b.toNat := bits_congr (by omega)
  have hlow : bits 8 n = bits 8 c.toNat := bits_congr (by omega)
  calc bits 6 (a.toNat / 4) ++ bits 6 (a.toNat * 16 + b.toNat / 16) ++
        bits 6 (b.toNat * 4 + c.toNat / 64) ++ bits 6 c.toNat
      = bits 24 n := by
        rw [hfirst, hsecond, hthird, hfourth, bits_append 6 18, bits_append 6 12, bits_append 6 6,
          List.append_assoc, List.append_assoc]
    _ = bits 8 a.toNat ++ bits 8 b.toNat ++ bits 8 c.toNat := by
        rw [bits_append 8 16, bits_append 8 8, hhigh, hmiddle, hlow, List.append_assoc]

theorem bits_two (a b : UInt8) :
    bits 6 (a.toNat / 4) ++ bits 6 (a.toNat * 16 + b.toNat / 16) ++ bits 6 (b.toNat * 4) =
      bits 8 a.toNat ++ bits 8 b.toNat ++ List.replicate 2 false := by
  have hzero : bits 8 (0 : UInt8).toNat = List.replicate 2 false ++ bits 6 (0 : UInt8).toNat := rfl
  have h := bits_three a b 0
  rw [hzero, ← List.append_assoc] at h
  exact List.append_cancel_right h

theorem bits_one (a : UInt8) :
    bits 6 (a.toNat / 4) ++ bits 6 (a.toNat * 16) = bits 8 a.toNat ++ List.replicate 4 false := by
  have hzero : bits 8 (0 : UInt8).toNat ++ List.replicate 2 false =
      List.replicate 4 false ++ bits 6 ((0 : UInt8).toNat * 4) := rfl
  have h := bits_two a 0
  rw [List.append_assoc (bits 8 a.toNat), hzero, ← List.append_assoc] at h
  exact List.append_cancel_right h

/-! ## Text that carries bytes -/

/-- The bits of bytes one after the other. -/
def octets (bytes : List UInt8) : List Bool := bytes.flatMap fun b => bits 8 b.toNat

/-- The bits of symbols one after the other: of each its number in the alphabet. -/
def sextets (symbols : List Char) : List Bool :=
  symbols.flatMap fun c => bits 6 (alphabet.idxOf c)

/-- Whether a text is the padded Base64 of bytes.  It comes in groups of four characters, the last
two of which may be padding, and its bits are those of the bytes and two zero bits behind them for
each character of padding. -/
def Carries (text : List Char) (bytes : List UInt8) : Prop :=
  ∃ symbols padding,
    text = symbols ++ List.replicate padding '=' ∧ (∀ c ∈ symbols, c ∈ alphabet) ∧
    padding ≤ 2 ∧ 4 ∣ text.length ∧
    sextets symbols = octets bytes ++ List.replicate (2 * padding) false

@[simp] theorem octets_nil : octets [] = [] := rfl

@[simp] theorem sextets_nil : sextets [] = [] := rfl

theorem octets_cons (b : UInt8) (bytes : List UInt8) :
    octets (b :: bytes) = bits 8 b.toNat ++ octets bytes :=
  rfl

theorem octets_injective {bytes bytes' : List UInt8} (h : octets bytes = octets bytes') :
    bytes = bytes' :=
  flatMap_bits_injective (by decide) (fun a _ => a.toNat_lt) (fun b _ => b.toNat_lt)
    (fun _ _ _ hnumber => UInt8.toNat_inj.mp hnumber) h

/-- The alphabet character by character.  What is decided by going through it is decided from this,
since the text it comes from has to be taken apart each time. -/
theorem alphabet_spelled : alphabet =
    ['A', 'B', 'C', 'D', 'E', 'F', 'G', 'H', 'I', 'J', 'K', 'L', 'M', 'N', 'O', 'P', 'Q', 'R', 'S',
      'T', 'U', 'V', 'W', 'X', 'Y', 'Z', 'a', 'b', 'c', 'd', 'e', 'f', 'g', 'h', 'i', 'j', 'k', 'l',
      'm', 'n', 'o', 'p', 'q', 'r', 's', 't', 'u', 'v', 'w', 'x', 'y', 'z', '0', '1', '2', '3', '4',
      '5', '6', '7', '8', '9', '+', '/'] :=
  String.toList_ofList

theorem character_mem_alphabet (n : Nat) : character n ∈ alphabet := by
  have hlength : alphabet.length = 64 := by rw [alphabet_spelled]; rfl
  have hlt : n % 64 < alphabet.length := by omega
  have hget : character n = alphabet[n % 64] := by
    simp only [character, List.getD_eq_getElem?_getD, List.getElem?_eq_getElem hlt,
      Option.getD_some]
  rw [hget]
  exact List.getElem_mem hlt

theorem bits_idxOf_character (n : Nat) : bits 6 (alphabet.idxOf (character n)) = bits 6 n := by
  have hall : ∀ i < 64, alphabet.idxOf (alphabet.getD i '=') = i := by
    rw [alphabet_spelled]
    decide +kernel
  rw [character, hall (n % 64) (Nat.mod_lt n (by decide))]
  exact bits_congr (Nat.mod_mod n 64)

theorem sextets_character_cons (n : Nat) (symbols : List Char) :
    sextets (character n :: symbols) = bits 6 n ++ sextets symbols := by
  rw [sextets, List.flatMap_cons, bits_idxOf_character]
  rfl

/-- What is written of bytes carries them. -/
theorem carries_encode (bytes : List UInt8) : Carries (encode bytes) bytes := by
  -- `encode` takes three bytes at a time, and the last one or two with padding.
  induction bytes using encode.induct with
  | case1 => exact ⟨[], 0, rfl, by simp, by decide, by decide, rfl⟩
  | case2 a =>
    refine ⟨[character (a.toNat / 4), character (a.toNat * 16)], 2, rfl, ?_, by decide,
      Nat.dvd_refl 4, ?_⟩
    · simp [character_mem_alphabet]
    · simp only [sextets_character_cons, octets_cons, sextets_nil, octets_nil, List.append_nil]
      exact bits_one a
  | case3 a b =>
    refine ⟨[character (a.toNat / 4), character (a.toNat * 16 + b.toNat / 16),
      character (b.toNat * 4)], 1, rfl, ?_, by decide, Nat.dvd_refl 4, ?_⟩
    · simp [character_mem_alphabet]
    · simp only [sextets_character_cons, octets_cons, sextets_nil, octets_nil, List.append_nil,
        ← List.append_assoc]
      exact bits_two a b
  | case4 a b c rest ih =>
    obtain ⟨symbols, padding, htext, hsymbols, hpadding, hfour, hbits⟩ := ih
    refine ⟨character (a.toNat / 4) :: character (a.toNat * 16 + b.toNat / 16) ::
      character (b.toNat * 4 + c.toNat / 64) :: character c.toNat :: symbols, padding, ?_, ?_,
      hpadding, ?_, ?_⟩
    · rw [encode, htext]
      rfl
    · simpa [character_mem_alphabet] using hsymbols
    · show 4 ∣ (encode rest).length + 4
      exact Nat.dvd_add hfour (Nat.dvd_refl 4)
    · simp only [sextets_character_cons, octets_cons, hbits, ← List.append_assoc]
      rw [bits_three a b c]

theorem padding_notMem_alphabet : '=' ∉ alphabet := by
  rw [alphabet_spelled]
  decide

theorem filter_eq_symbols {symbols : List Char} (hsymbols : ∀ c ∈ symbols, c ∈ alphabet)
    (padding : Nat) :
    (symbols ++ List.replicate padding '=').filter (· ≠ '=') = symbols := by
  have hkept : symbols.filter (· ≠ '=') = symbols := by
    refine List.filter_eq_self.mpr fun c hc => decide_eq_true ?_
    rintro rfl
    exact padding_notMem_alphabet (hsymbols _ hc)
  rw [List.filter_append, hkept, List.filter_replicate_of_neg (by decide), List.append_nil]

/-- A text carries no bytes but one list of them. -/
theorem Carries.unique {text : List Char} {bytes bytes' : List UInt8} (h : Carries text bytes)
    (h' : Carries text bytes') : bytes = bytes' := by
  obtain ⟨symbols, padding, htext, hsymbols, -, -, hbits⟩ := h
  obtain ⟨symbols', padding', htext', hsymbols', -, -, hbits'⟩ := h'
  have hsame : symbols = symbols' := by
    rw [← filter_eq_symbols hsymbols padding, ← htext, htext', filter_eq_symbols hsymbols']
  subst hsame
  have hcount : padding = padding' := by
    have hlength := congrArg List.length (htext.symm.trans htext')
    simpa only [List.length_append, List.length_replicate, Nat.add_left_cancel_iff] using hlength
  subst hcount
  exact octets_injective (List.append_cancel_right (hbits.symm.trans hbits'))

/-! ## Reading -/

def IsSymbol (c : Char) : Prop := c ∈ alphabet ∨ c = '='

theorem encode_isSymbol (bytes : List UInt8) : ∀ c ∈ encode bytes, IsSymbol c := by
  obtain ⟨symbols, padding, htext, hsymbols, -⟩ := carries_encode bytes
  intro c hc
  rw [htext] at hc
  rcases List.mem_append.mp hc with hc | hc
  · exact Or.inl (hsymbols c hc)
  · exact Or.inr (List.eq_of_mem_replicate hc)

theorem toNat_lt_of_isSymbol {c : Char} (h : IsSymbol c) : c.toNat < 128 := by
  have halphabet : alphabet.all (fun c => decide (c.toNat < 128)) = true := by
    rw [alphabet_spelled]
    decide
  rcases h with h | rfl
  · exact of_decide_eq_true (List.all_eq_true.mp halphabet c h)
  · decide

theorem encode_ne_nil (b : UInt8) (bytes : List UInt8) : encode (b :: bytes) ≠ [] := by
  match bytes with
  | [] | [_] | _ :: _ :: _ => exact List.cons_ne_nil _ _

theorem length_encode (bytes : List UInt8) :
    (encode bytes).length = (bytes.length + 2) / 3 * 4 := by
  induction bytes using encode.induct with
  | case1 => rfl
  | case2 a => simp [encode]
  | case3 a b => simp [encode]
  | case4 a b c rest ih =>
    simp only [encode, List.length_cons, ih]
    omega

/-- What symbols are read as: six bits each, and nothing for padding. -/
def readings (symbols : List Char) : List (Option Nat) := symbols.map fun c => bits? c.toUInt8

theorem bits?_character (n : Nat) : bits? (character n).toUInt8 = some (n % 64) := by
  have hall : ∀ i < 64, bits? (alphabet.getD i '=').toUInt8 = some i := by
    rw [alphabet_spelled]
    decide +kernel
  exact hall (n % 64) (Nat.mod_lt n (by decide))

theorem readings_character_cons (n : Nat) (symbols : List Char) :
    readings (character n :: symbols) = some (n % 64) :: readings symbols := by
  rw [readings, List.map_cons, bits?_character]
  rfl

theorem isReadable_of_isSymbol {c : Char} (h : IsSymbol c) :
    isBlank c.toUInt8 = false ∧
      (isPadding c.toUInt8 = true ∨ (bits? c.toUInt8).isSome = true) := by
  have halphabet : alphabet.all (fun c => decide (isBlank c.toUInt8 = false ∧
      (isPadding c.toUInt8 = true ∨ (bits? c.toUInt8).isSome = true))) = true := by
    rw [alphabet_spelled]
    decide +kernel
  rcases h with h | rfl
  · exact of_decide_eq_true (List.all_eq_true.mp halphabet c h)
  · decide

theorem decodeFrom_symbol {group : List (Option Nat)} {c : Char} (hc : IsSymbol c)
    (hlen : group.length < 8) (rest : List UInt8) :
    decodeFrom group (c.toUInt8 :: rest) = decodeFrom (group ++ [bits? c.toUInt8]) rest := by
  obtain ⟨hblank, hreadable⟩ := isReadable_of_isSymbol hc
  rw [decodeFrom, hblank, if_neg Bool.false_ne_true, if_pos hreadable, if_neg (Nat.ne_of_lt hlen)]

/-- A symbol behind a group that is full begins the next one. -/
theorem decodeFrom_full {group : List (Option Nat)} {c : Char} (hc : IsSymbol c)
    (hlen : group.length = 8) (rest : List UInt8) :
    decodeFrom group (c.toUInt8 :: rest) = do
      let bytes ← fullGroup group
      return bytes ++ (← decode (c.toUInt8 :: rest)) := by
  obtain ⟨hblank, hreadable⟩ := isReadable_of_isSymbol hc
  have hnext : decode (c.toUInt8 :: rest) = decodeFrom [bits? c.toUInt8] rest :=
    @decodeFrom_symbol [] c hc (by decide) rest
  rw [hnext, decodeFrom, hblank, if_neg Bool.false_ne_true, if_pos hreadable, if_pos hlen]

/-- Symbols fill a group as long as there is room in it. -/
theorem decodeFrom_append {symbols : List Char} (hsymbols : ∀ c ∈ symbols, IsSymbol c)
    {group : List (Option Nat)} (hlen : group.length + symbols.length ≤ 8) (rest : List UInt8) :
    decodeFrom group (symbols.map Char.toUInt8 ++ rest) =
      decodeFrom (group ++ readings symbols) rest := by
  induction symbols generalizing group with
  | nil => exact congrArg (decodeFrom · rest) (List.append_nil group).symm
  | cons c symbols ih =>
    rw [List.length_cons] at hlen
    have hroom : (group ++ [bits? c.toUInt8]).length + symbols.length ≤ 8 := by
      rw [List.length_append, List.length_singleton]
      omega
    rw [List.map_cons, List.cons_append,
      decodeFrom_symbol (hsymbols c List.mem_cons_self) (by omega),
      ih (fun d hd => hsymbols d (List.mem_cons_of_mem c hd)) hroom, List.append_assoc]
    rfl

theorem bytesOfFour_sextets (a b c : UInt8) :
    bytesOfFour (a.toNat / 4 % 64) ((a.toNat * 16 + b.toNat / 16) % 64)
      ((b.toNat * 4 + c.toNat / 64) % 64) (c.toNat % 64) = [a, b, c] := by
  have ha := a.toNat_lt
  have hb := b.toNat_lt
  have hc := c.toNat_lt
  have hfirst : a.toNat / 4 % 64 * 4 + (a.toNat * 16 + b.toNat / 16) % 64 / 16 = a.toNat := by
    omega
  have hsecond : (a.toNat * 16 + b.toNat / 16) % 64 % 16 * 16 +
      (b.toNat * 4 + c.toNat / 64) % 64 / 4 = b.toNat := by
    omega
  have hthird : (b.toNat * 4 + c.toNat / 64) % 64 % 4 * 64 + c.toNat % 64 = c.toNat := by
    omega
  rw [bytesOfFour, hfirst, hsecond, hthird]
  simp only [UInt8.ofNat_toNat]

theorem lastBytes_readings {bytes : List UInt8} (h : bytes.length ≤ 3) :
    lastBytes (readings (encode bytes)) = .ok bytes := by
  match bytes with
  | [] => rfl
  | [a] =>
    have hbytes : bytesOfFour (a.toNat / 4 % 64) (a.toNat * 16 % 64) 0 0 = [a, 0, 0] :=
      bytesOfFour_sextets a 0 0
    rw [encode, readings_character_cons, readings_character_cons]
    exact congrArg (fun bytes => Except.ok (bytes.take 1)) hbytes
  | [a, b] =>
    have hbytes : bytesOfFour (a.toNat / 4 % 64) ((a.toNat * 16 + b.toNat / 16) % 64)
        (b.toNat * 4 % 64) 0 = [a, b, 0] :=
      bytesOfFour_sextets a b 0
    rw [encode, readings_character_cons, readings_character_cons, readings_character_cons]
    exact congrArg (fun bytes => Except.ok (bytes.take 2)) hbytes
  | [a, b, c] =>
    simp only [encode, readings_character_cons]
    exact congrArg Except.ok (bytesOfFour_sextets a b c)

theorem lastGroup_readings {bytes : List UInt8} (h : bytes.length ≤ 6) :
    lastGroup (readings (encode bytes)) = .ok bytes := by
  match bytes with
  | [] => rfl
  | [a] => exact @lastBytes_readings [a] (by simp)
  | [a, b] => exact @lastBytes_readings [a, b] (by simp)
  | [a, b, c] => exact @lastBytes_readings [a, b, c] (by simp)
  | a :: b :: c :: d :: rest =>
    have hlast : lastBytes (readings (encode (d :: rest))) = .ok (d :: rest) :=
      lastBytes_readings (by simp only [List.length_cons] at h ⊢; omega)
    obtain ⟨symbol, symbols, hsymbols⟩ := List.exists_cons_of_ne_nil (encode_ne_nil d rest)
    rw [hsymbols] at hlast
    simp only [encode, hsymbols, readings_character_cons]
    show (do return bytesOfFour _ _ _ _ ++ (← lastBytes (readings (symbol :: symbols)))) = _
    rw [hlast, bytesOfFour_sextets]
    rfl

theorem fullGroup_readings (a b c d e f : UInt8) :
    fullGroup (readings (encode [a, b, c, d, e, f])) = .ok [a, b, c, d, e, f] := by
  simp only [encode, readings_character_cons]
  show Except.ok (bytesOfFour _ _ _ _ ++ bytesOfFour _ _ _ _) = _
  rw [bytesOfFour_sextets, bytesOfFour_sextets]
  rfl

theorem decode_encode_short {bytes : List UInt8} (h : bytes.length ≤ 6) :
    decode ((encode bytes).map Char.toUInt8) = .ok bytes := by
  have hroom : ([] : List (Option Nat)).length + (encode bytes).length ≤ 8 := by
    rw [List.length_nil, length_encode]
    omega
  have hgroup := decodeFrom_append (encode_isSymbol bytes) hroom []
  rw [List.append_nil, List.nil_append] at hgroup
  rw [decode, hgroup]
  exact lastGroup_readings h

/-- What is written of bytes is read as these bytes. -/
theorem decode_encode : (bytes : List UInt8) →
    decode ((encode bytes).map Char.toUInt8) = .ok bytes
  | [] | [_] | [_, _] | [_, _, _] | [_, _, _, _] | [_, _, _, _, _] | [_, _, _, _, _, _] =>
    decode_encode_short (by simp)
  | a :: b :: c :: d :: e :: f :: g :: rest => by
    -- Eight characters carry six bytes, so a full group is what is written of six bytes.
    have hsplit : encode (a :: b :: c :: d :: e :: f :: g :: rest) =
        encode [a, b, c, d, e, f] ++ encode (g :: rest) := rfl
    have hfirst := @decodeFrom_append _ (encode_isSymbol [a, b, c, d, e, f]) [] (Nat.le_refl 8)
      ((encode (g :: rest)).map Char.toUInt8)
    have hrest := decode_encode (g :: rest)
    obtain ⟨symbol, symbols, hsymbols⟩ := List.exists_cons_of_ne_nil (encode_ne_nil g rest)
    have hsymbol : IsSymbol symbol :=
      encode_isSymbol (g :: rest) symbol (by rw [hsymbols]; exact List.mem_cons_self)
    rw [hsymbols, List.map_cons] at hfirst hrest
    rw [hsplit, hsymbols, List.map_append, List.map_cons, decode, hfirst, List.nil_append,
      decodeFrom_full hsymbol rfl, fullGroup_readings, hrest]
    rfl

end PlaneBridge.Text.Base64
