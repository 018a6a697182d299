import GatewayMapping.Text.Utf8

/-!
# The round trip of UTF-8

The bytes of a text are the ones that strings are stored in (`Text.Utf8.encode_toList`), and reading
them gives the text back (`Text.Utf8.decode_encode`).

The first byte of a character settles how many are owed and between which bounds the next one lies.
These bounds leave out the bytes that would begin a longer form than needed, a surrogate or a number
past the last character, so the bytes of a character are within them. After the first byte every
character is read in the same way, six bits at a time.
-/

namespace GatewayMapping.Text.Utf8

variable {c : Char} {bits owed low high : Nat}

/-! ### Bytes of characters -/

private theorem toNat_ofNat {n : Nat} (h : n < 256) : (UInt8.ofNat n).toNat = n :=
  UInt8.toNat_ofNat_of_lt' h

/-- The number of a character is no surrogate and lies below the end. -/
theorem toNat_valid (c : Char) : c.toNat < 0xD800 ∨ 0xDFFF < c.toNat ∧ c.toNat < 0x110000 := c.valid

/-- The bytes of a character are those of the library, which sums them up the other way round. -/
theorem encodeChar_eq (c : Char) : encodeChar c = String.utf8EncodeChar c := by
  have hvalid := toNat_valid c
  have hval : c.val.toNat = c.toNat := rfl
  rw [encodeChar, String.utf8EncodeChar, hval]
  by_cases h₁ : c.toNat < 0x80
  · rw [if_pos h₁, if_pos (by omega)]
  by_cases h₂ : c.toNat < 0x800
  · have hlead : c.toNat / 64 % 0x20 + 0xC0 = 0xC0 + c.toNat / 64 := by omega
    rw [if_neg h₁, if_pos h₂, if_neg (by omega), if_pos (by omega), hlead,
      Nat.add_comm 0x80 (c.toNat % 64)]
  by_cases h₃ : c.toNat < 0x10000
  · have hlead : c.toNat / 4096 % 0x10 + 0xE0 = 0xE0 + c.toNat / 4096 := by omega
    rw [if_neg h₁, if_neg h₂, if_pos h₃, if_neg (by omega), if_neg (by omega), if_pos (by omega),
      hlead, Nat.add_comm 0x80 (c.toNat % 64), Nat.add_comm 0x80 (c.toNat / 64 % 64)]
  · have hlead : c.toNat / 262144 % 0x08 + 0xF0 = 0xF0 + c.toNat / 262144 := by omega
    rw [if_neg h₁, if_neg h₂, if_neg h₃, if_neg (by omega), if_neg (by omega), if_neg (by omega),
      hlead, Nat.add_comm 0x80 (c.toNat % 64), Nat.add_comm 0x80 (c.toNat / 64 % 64),
      Nat.add_comm 0x80 (c.toNat / 4096 % 64)]

/-- The bytes of a text are the ones that it is stored in. -/
theorem encode_toList (s : String) : encode s.toList = s.toUTF8.data.toList := by
  have hchar : encodeChar = String.utf8EncodeChar := funext encodeChar_eq
  rw [String.toUTF8_eq_toByteArray, ← String.utf8Encode_toList, List.utf8Encode,
    List.toList_data_toByteArray, encode, hchar]

/-! ### Reading the bytes of a character -/

/-- The last six bits complete a character. -/
theorem decodeFrom_last {n : Nat} (hlow : low ≤ 0x80 + n % 64) (hhigh : 0x80 + n % 64 ≤ high)
    (bs : List UInt8) :
    decodeFrom (some ⟨0, low, high, bits⟩) (UInt8.ofNat (0x80 + n % 64) :: bs) =
      Char.ofNat (bits * 64 + n % 64) :: decodeFrom none bs := by
  have hbyte : (UInt8.ofNat (0x80 + n % 64)).toNat = 0x80 + n % 64 := toNat_ofNat (by omega)
  have hrange : (decide (low ≤ 0x80 + n % 64) && decide (0x80 + n % 64 ≤ high)) = true := by
    simp [hlow, hhigh]
  rw [decodeFrom, step, hbyte, if_pos hrange, Nat.add_sub_cancel_left]
  rfl

/-- Six bits before the last are kept for what follows. -/
theorem decodeFrom_more {n : Nat} (hlow : low ≤ 0x80 + n % 64) (hhigh : 0x80 + n % 64 ≤ high)
    (bs : List UInt8) :
    decodeFrom (some ⟨owed + 1, low, high, bits⟩) (UInt8.ofNat (0x80 + n % 64) :: bs) =
      decodeFrom (some ⟨owed, 0x80, 0xBF, bits * 64 + n % 64⟩) bs := by
  have hbyte : (UInt8.ofNat (0x80 + n % 64)).toNat = 0x80 + n % 64 := toNat_ofNat (by omega)
  have hrange : (decide (low ≤ 0x80 + n % 64) && decide (0x80 + n % 64 ≤ high)) = true := by
    simp [hlow, hhigh]
  rw [decodeFrom, step, hbyte, if_pos hrange, Nat.add_sub_cancel_left]
  rfl

/-- The first of two bytes. -/
theorem start_two {n : Nat} (hlow : 0x80 ≤ n) (hhigh : n < 0x800) :
    start (UInt8.ofNat (0xC0 + n / 64)) = ([], some ⟨0, 0x80, 0xBF, n / 64⟩) := by
  have hbyte : (UInt8.ofNat (0xC0 + n / 64)).toNat = 0xC0 + n / 64 := toNat_ofNat (by omega)
  rw [start, hbyte]
  rw [if_neg (by omega), if_neg (by omega), if_pos (by omega), Nat.add_sub_cancel_left]

/-- The first of three bytes, after which the second one is within the bounds. -/
theorem exists_start_three {n : Nat} (hlow : 0x800 ≤ n) (hhigh : n < 0x10000)
    (hvalid : n < 0xD800 ∨ 0xDFFF < n) :
    ∃ low high, low ≤ 0x80 + n / 64 % 64 ∧ 0x80 + n / 64 % 64 ≤ high ∧
      start (UInt8.ofNat (0xE0 + n / 4096)) = ([], some ⟨1, low, high, n / 4096⟩) := by
  have hbyte : (UInt8.ofNat (0xE0 + n / 4096)).toNat = 0xE0 + n / 4096 := toNat_ofNat (by omega)
  rw [start, hbyte]
  rw [if_neg (by omega), if_neg (by omega), if_neg (by omega)]
  -- After the least first byte no shorter form may follow, and after `0xED` no surrogate.
  by_cases hfirst : n / 4096 = 0
  · rw [if_pos (by omega), hfirst]
    exact ⟨_, _, by omega, by omega, rfl⟩
  by_cases hsurrogate : n / 4096 = 0xD
  · rw [if_neg (by omega), if_pos (by omega), hsurrogate]
    exact ⟨_, _, by omega, by omega, rfl⟩
  · rw [if_neg (by omega), if_neg (by omega), if_pos (by omega), Nat.add_sub_cancel_left]
    exact ⟨_, _, by omega, by omega, rfl⟩

/-- The first of four bytes, after which the second one is within the bounds. -/
theorem exists_start_four {n : Nat} (hlow : 0x10000 ≤ n) (hhigh : n < 0x110000) :
    ∃ low high, low ≤ 0x80 + n / 4096 % 64 ∧ 0x80 + n / 4096 % 64 ≤ high ∧
      start (UInt8.ofNat (0xF0 + n / 262144)) = ([], some ⟨2, low, high, n / 262144⟩) := by
  have hbyte : (UInt8.ofNat (0xF0 + n / 262144)).toNat = 0xF0 + n / 262144 := toNat_ofNat (by omega)
  rw [start, hbyte]
  rw [if_neg (by omega), if_neg (by omega), if_neg (by omega), if_neg (by omega), if_neg (by omega),
    if_neg (by omega)]
  by_cases hfirst : n / 262144 = 0
  · rw [if_pos (by omega), hfirst]
    exact ⟨_, _, by omega, by omega, rfl⟩
  by_cases hlast : n / 262144 = 4
  · rw [if_neg (by omega), if_neg (by omega), if_pos (by omega), hlast]
    exact ⟨_, _, by omega, by omega, rfl⟩
  · rw [if_neg (by omega), if_pos (by omega), Nat.add_sub_cancel_left]
    exact ⟨_, _, by omega, by omega, rfl⟩

/-- A character is read from its bytes, whatever follows. -/
theorem decodeFrom_encodeChar_append (c : Char) (bs : List UInt8) :
    decodeFrom none (encodeChar c ++ bs) = c :: decodeFrom none bs := by
  have hvalid := toNat_valid c
  have hdone {n : Nat} (h : n = c.toNat) : Char.ofNat n = c := by rw [h, Char.ofNat_toNat]
  rw [encodeChar]
  by_cases h₁ : c.toNat < 0x80
  · have hstart : start (UInt8.ofNat c.toNat) = ([c], none) := by
      rw [start, toNat_ofNat (by omega)]
      rw [if_pos h₁, hdone rfl]
    rw [if_pos h₁, List.cons_append, List.nil_append, decodeFrom, step, hstart]
    rfl
  by_cases h₂ : c.toNat < 0x800
  · rw [if_neg h₁, if_pos h₂, List.cons_append, List.cons_append, List.nil_append, decodeFrom, step,
      start_two (by omega) h₂]
    dsimp only
    rw [decodeFrom_last (by omega) (by omega), hdone (by omega), List.nil_append]
  by_cases h₃ : c.toNat < 0x10000
  · obtain ⟨low, high, hlow, hhigh, hstart⟩ := exists_start_three (by omega) h₃ (by omega)
    rw [if_neg h₁, if_neg h₂, if_pos h₃]
    simp only [List.cons_append, List.nil_append]
    rw [decodeFrom, step, hstart]
    dsimp only
    rw [decodeFrom_more hlow hhigh, decodeFrom_last (by omega) (by omega), hdone (by omega),
      List.nil_append]
  · have hlow₃ : 0x10000 ≤ c.toNat := by omega
    obtain ⟨low, high, hlow, hhigh, hstart⟩ := exists_start_four hlow₃ (by omega)
    rw [if_neg h₁, if_neg h₂, if_neg h₃]
    simp only [List.cons_append, List.nil_append]
    rw [decodeFrom, step, hstart]
    dsimp only
    rw [decodeFrom_more hlow hhigh, decodeFrom_more (by omega) (by omega),
      decodeFrom_last (by omega) (by omega), hdone (by omega), List.nil_append]

/-- **A text is read from its bytes.** -/
theorem decode_encode (cs : List Char) : decode (encode cs) = cs := by
  induction cs with
  | nil => rfl
  | cons c cs ih =>
    rw [decode, encode, List.flatMap_cons, decodeFrom_encodeChar_append]
    exact congrArg (c :: ·) ih

end GatewayMapping.Text.Utf8
