import BlockSketch.Proofs.Outcome
import BlockSketch.Text.Surrogate
import BlockSketch.Text.Utf8

/-! # Bytes of texts

Bytes are decoded to a text exactly if they are the bytes of that text. In particular the decoder
accepts no other bytes, and different texts have different bytes.
-/

namespace BlockSketch.Utf8

variable {n k : Nat} {c : Char} {cs : List Char}

/-! ## Codes

Everything about one character is said about its code, where the bytes are numbers.
-/

/-- The bytes of the character with a code, as numbers. -/
def codeBytes (n : Nat) : List Nat :=
  if n < 0x80 then [n]
  else if n < 0x800 then [0xC0 + n / 0x40, 0x80 + n % 0x40]
  else if n < 0x10000 then [0xE0 + n / 0x1000, 0x80 + n / 0x40 % 0x40, 0x80 + n % 0x40]
  else [0xF0 + n / 0x40000, 0x80 + n / 0x1000 % 0x40, 0x80 + n / 0x40 % 0x40, 0x80 + n % 0x40]

theorem codeBytes_ne_nil (n : Nat) : codeBytes n ≠ [] := by
  unfold codeBytes
  split_ifs <;> simp

theorem length_codeBytes_le (n : Nat) : (codeBytes n).length ≤ 4 := by
  unfold codeBytes
  split_ifs <;> simp

theorem toNat_toUInt8 (h : n < 0x100) : n.toUInt8.toNat = n := Nat.mod_eq_of_lt h

theorem map_toNat_encodeChar (c : Char) : (encodeChar c).map UInt8.toNat = codeBytes c.toNat := by
  have hc : c.toNat < 0x110000 := by
    rcases c.valid with h | h
    · exact Nat.lt_trans h (by decide)
    · exact h.2
  unfold encodeChar codeBytes
  dsimp only
  split_ifs with h1 h2 h3
  · rw [List.map_singleton, toNat_toUInt8 (by omega)]
  · simp only [List.map_cons, List.map_nil]
    rw [toNat_toUInt8 (by omega), toNat_toUInt8 (by omega)]
  · simp only [List.map_cons, List.map_nil]
    rw [toNat_toUInt8 (by omega), toNat_toUInt8 (by omega), toNat_toUInt8 (by omega)]
  · simp only [List.map_cons, List.map_nil]
    rw [toNat_toUInt8 (by omega), toNat_toUInt8 (by omega), toNat_toUInt8 (by omega),
      toNat_toUInt8 (by omega)]

theorem isContinuation_iff {b : Nat} : isContinuation b = true ↔ 0x80 ≤ b ∧ b < 0xC0 := by
  simp [isContinuation]

theorem continues_iff {a b : Nat} : continues a b = true ↔ 0x80 ≤ b ∧ b < 0xC0 ∧
    (a = 0xE0 → 0xA0 ≤ b) ∧ (a = 0xED → b < 0xA0) ∧ (a = 0xF0 → 0x90 ≤ b) ∧
    (a = 0xF4 → b < 0x90) := by
  simp only [continues, Bool.and_eq_true, Bool.or_eq_true, isContinuation_iff, bne_iff_ne,
    decide_eq_true_eq, and_assoc, ne_eq, ← imp_iff_not_or]

/-! ## The first character -/

theorem front_codeBytes (h : n.isValidChar) (rest : List Nat) :
    front (codeBytes n ++ rest) = .ok (Char.ofNat n, (codeBytes n).length) := by
  have hv : n < 0xD800 ∨ 0xDFFF < n ∧ n < 0x110000 := h
  unfold codeBytes
  split_ifs with h1 h2 h3
  · exact if_pos h1
  · have hb : isContinuation (0x80 + n % 0x40) = true := isContinuation_iff.mpr (by omega)
    have hn : extend (0xC0 + n / 0x40 - 0xC0) (0x80 + n % 0x40) = n := by
      unfold extend
      omega
    simp only [List.cons_append, List.nil_append, front]
    rw [if_neg (by omega), if_neg (by omega), if_pos (by omega), if_pos hb, hn]
    rfl
  · have hb : continues (0xE0 + n / 0x1000) (0x80 + n / 0x40 % 0x40) = true :=
      continues_iff.mpr (by omega)
    have hc : isContinuation (0x80 + n % 0x40) = true := isContinuation_iff.mpr (by omega)
    have hn : extend (extend (0xE0 + n / 0x1000 - 0xE0) (0x80 + n / 0x40 % 0x40))
        (0x80 + n % 0x40) = n := by
      unfold extend
      omega
    simp only [List.cons_append, List.nil_append, front, hb, hc, hn]
    rw [if_neg (by omega), if_neg (by omega), if_neg (by omega), if_pos (by omega)]
    rfl
  · have hb : continues (0xF0 + n / 0x40000) (0x80 + n / 0x1000 % 0x40) = true :=
      continues_iff.mpr (by omega)
    have hc : isContinuation (0x80 + n / 0x40 % 0x40) = true := isContinuation_iff.mpr (by omega)
    have hd : isContinuation (0x80 + n % 0x40) = true := isContinuation_iff.mpr (by omega)
    have hn : extend (extend (extend (0xF0 + n / 0x40000 - 0xF0) (0x80 + n / 0x1000 % 0x40))
        (0x80 + n / 0x40 % 0x40)) (0x80 + n % 0x40) = n := by
      unfold extend
      omega
    simp only [List.cons_append, List.nil_append, front, hb, hc, hd, hn]
    rw [if_neg (by omega), if_neg (by omega), if_neg (by omega), if_neg (by omega),
      if_pos (by omega)]
    rfl

/-! Each of the three ways to make up a code from more than one byte gives a code with these
bytes. -/

/-- The bytes are those of a character with the code. -/
def Spells (n : Nat) (l : List Nat) : Prop := n.isValidChar ∧ codeBytes n = l

theorem spells_two {a b : Nat} (h : 0xC2 ≤ a ∧ a < 0xE0) (hb : isContinuation b = true) :
    Spells (extend (a - 0xC0) b) [a, b] := by
  have hb := isContinuation_iff.mp hb
  unfold Spells Nat.isValidChar codeBytes extend
  refine ⟨by omega, ?_⟩
  rw [if_neg (by omega), if_pos (by omega)]
  simp only [List.cons.injEq, and_true]
  omega

theorem spells_three {a b d : Nat} (h : 0xE0 ≤ a ∧ a < 0xF0) (hb : continues a b = true)
    (hd : isContinuation d = true) : Spells (extend (extend (a - 0xE0) b) d) [a, b, d] := by
  have hb := continues_iff.mp hb
  have hd := isContinuation_iff.mp hd
  unfold Spells Nat.isValidChar codeBytes extend
  refine ⟨by omega, ?_⟩
  rw [if_neg (by omega), if_neg (by omega), if_pos (by omega)]
  simp only [List.cons.injEq, and_true]
  omega

theorem spells_four {a b d e : Nat} (h : 0xF0 ≤ a ∧ a < 0xF5) (hb : continues a b = true)
    (hd : isContinuation d = true) (he : isContinuation e = true) :
    Spells (extend (extend (extend (a - 0xF0) b) d) e) [a, b, d, e] := by
  have hb := continues_iff.mp hb
  have hd := isContinuation_iff.mp hd
  have he := isContinuation_iff.mp he
  unfold Spells Nat.isValidChar codeBytes extend
  refine ⟨by omega, ?_⟩
  rw [if_neg (by omega), if_neg (by omega), if_neg (by omega)]
  simp only [List.cons.injEq, and_true]
  omega

/-- Bytes that begin with a character begin with all its bytes. -/
theorem codeBytes_of_front {bytes : List Nat} (h : front bytes = .ok (c, k)) :
    ∃ rest, bytes = codeBytes c.toNat ++ rest ∧ k = (codeBytes c.toNat).length := by
  have found {l rest : List Nat} {n : Nat} (hs : Spells n l)
      (hn : (Char.ofNat n, l.length) = (c, k)) :
      ∃ rest', l ++ rest = codeBytes c.toNat ++ rest' ∧ k = (codeBytes c.toNat).length := by
    obtain ⟨rfl, rfl⟩ := Prod.mk.inj hn
    rw [Text.toNat_ofNat hs.1, hs.2]
    exact ⟨rest, rfl, rfl⟩
  cases bytes with
  | nil => cases h
  | cons a rest =>
    unfold front at h
    dsimp only at h
    split_ifs at h with h1 h2 h3 h4 h5
    · exact found (l := [a]) ⟨.inl (by omega), if_pos h1⟩ (Except.ok.inj h)
    · rcases rest with _ | ⟨b, rest⟩ <;> dsimp only at h
      · cases h
      split_ifs at h with hb
      exact found (spells_two (by omega) hb) (Except.ok.inj h)
    · rcases rest with _ | ⟨b, rest⟩ <;> dsimp only at h
      · cases h
      split_ifs at h with hb
      rcases rest with _ | ⟨d, rest⟩ <;> dsimp only at h
      · cases h
      split_ifs at h with hd
      exact found (spells_three (by omega) (by simpa using hb) hd) (Except.ok.inj h)
    · rcases rest with _ | ⟨b, rest⟩ <;> dsimp only at h
      · cases h
      split_ifs at h with hb
      rcases rest with _ | ⟨d, rest⟩ <;> dsimp only at h
      · cases h
      split_ifs at h with hd
      rcases rest with _ | ⟨e, rest⟩ <;> dsimp only at h
      · cases h
      split_ifs at h with he
      exact found (spells_four (by omega) (by simpa using hb) (by simpa using hd) he)
        (Except.ok.inj h)

/-! ## All characters -/

theorem encodeChar_ne_nil (c : Char) : encodeChar c ≠ [] := by
  intro h
  exact codeBytes_ne_nil c.toNat (by rw [← map_toNat_encodeChar, h, List.map_nil])

theorem length_encodeChar_le (c : Char) : (encodeChar c).length ≤ 4 := by
  rw [← List.length_map UInt8.toNat, map_toNat_encodeChar]
  exact length_codeBytes_le _

/-- The decoder looks at four bytes, which is enough for every character. -/
theorem front_take_eq_ok_iff {bytes : List UInt8} :
    front ((bytes.take 4).map UInt8.toNat) = .ok (c, k) ↔
      ∃ rest, bytes = encodeChar c ++ rest ∧ k = (encodeChar c).length := by
  constructor
  · intro h
    obtain ⟨rest, hr, rfl⟩ := codeBytes_of_front h
    obtain ⟨l, r, hl, hc, -⟩ := List.map_eq_append_iff.mp hr
    have hc : l = encodeChar c := List.map_injective_iff.mpr (fun _ _ => UInt8.toNat_inj.mp)
      (hc.trans (map_toNat_encodeChar c).symm)
    refine ⟨r ++ bytes.drop 4, ?_, ?_⟩
    · rw [← List.append_assoc, ← hc, ← hl, List.take_append_drop]
    · rw [← map_toNat_encodeChar, List.length_map]
  · rintro ⟨rest, rfl, rfl⟩
    rw [List.take_append, List.take_of_length_le (length_encodeChar_le c), List.map_append,
      map_toNat_encodeChar, front_codeBytes (n := c.toNat) c.valid, Char.ofNat_toNat,
      ← map_toNat_encodeChar, List.length_map]

theorem encode_cons : encode (c :: cs) = encodeChar c ++ encode cs := rfl

theorem encode_eq_nil_iff : encode cs = [] ↔ cs = [] := by
  cases cs with
  | nil => exact iff_of_true rfl rfl
  | cons c cs => simp [encode_cons, encodeChar_ne_nil]

theorem decodeFrom_eq_ok_iff {bytes : List UInt8} {position fuel : Nat}
    (hf : bytes.length ≤ fuel) : decodeFrom position fuel bytes = .ok cs ↔ encode cs = bytes := by
  induction fuel generalizing bytes position cs with
  | zero =>
    obtain rfl := List.length_eq_zero_iff.mp (Nat.le_zero.mp hf)
    rw [decodeFrom, Except.ok.injEq, encode_eq_nil_iff, eq_comm]
  | succ fuel ih =>
    cases bytes with
    | nil => rw [decodeFrom, Except.ok.injEq, encode_eq_nil_iff, eq_comm]
    | cons b bytes =>
      -- A character takes at least one byte, so the fuel lasts for the rest.
      have shorter {c : Char} {rest : List UInt8} (h : b :: bytes = encodeChar c ++ rest) :
          rest.length ≤ fuel := by
        have hc := List.length_pos_iff.mpr (encodeChar_ne_nil c)
        have hl := congrArg List.length h
        rw [List.length_append] at hl
        rw [List.length_cons] at hl hf
        omega
      rw [decodeFrom]
      constructor
      · intro h
        split at h
        · cases h
        · next c k hfront =>
          obtain ⟨rest, hr, rfl⟩ := front_take_eq_ok_iff.mp hfront
          obtain ⟨cs, hcs, h⟩ := bind_eq_ok_iff.mp h
          obtain rfl := pure_eq_ok_iff.mp h
          rw [hr, List.drop_left] at hcs
          rw [encode_cons, (ih (shorter hr)).mp hcs, hr]
      · intro h
        cases cs with
        | nil => cases h
        | cons c cs =>
          rw [encode_cons] at h
          rw [front_take_eq_ok_iff.mpr ⟨_, h.symm, rfl⟩, ← h]
          dsimp only
          rw [List.drop_left]
          exact bind_eq_ok_iff.mpr ⟨cs, (ih (shorter h.symm)).mpr rfl, rfl⟩

/-- Bytes are decoded to a text exactly if they are the bytes of the text. -/
theorem decode_eq_ok_iff {bytes : List UInt8} : decode bytes = .ok cs ↔ encode cs = bytes :=
  decodeFrom_eq_ok_iff (Nat.le_refl _)

/-- Different texts have different bytes. -/
theorem encode_injective {cs cs' : List Char} (h : encode cs = encode cs') : cs = cs' :=
  Except.ok.inj ((decode_eq_ok_iff.mpr h).symm.trans (decode_eq_ok_iff.mpr rfl))

end BlockSketch.Utf8
