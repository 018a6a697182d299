import Mathlib
import GatewayMapping.Proofs.Text.Utf8
import GatewayMapping.Text.FormUrl

/-!
# The round trip of form encoding

The form encoding of a text is made of characters that stand for themselves and of complete escapes
(`Text.FormUrl.FormEncoded`), so it is never taken for a text with a malformed escape. The bytes
that it stands for are the UTF-8 form of the text, and decoding it gives the text back
(`Text.FormUrl.decode_encoded`).

A literal `+` or `%` is none of the characters that stand for themselves, so it is written as an
escape, and no other byte is read as a blank or as the beginning of an escape.

## Main definitions

* `Text.FormUrl.FormEncoded`: texts of unreserved characters, `+` and complete escapes.

## Main results

* `Text.FormUrl.decode_encoded`: the round trip.
-/

namespace GatewayMapping.Text.FormUrl

/-- The hexadecimal digits of an escape. -/
def hexDigits : List Char := "0123456789ABCDEF".toList

/-- The characters besides letters and digits that a form encoding may hold on their own. -/
def plainSigns : List Char := ['*', '-', '.', '_', '+']

/-- A text of letters, digits, plain signs and complete escapes. -/
inductive FormEncoded : List Char → Prop
  | nil : FormEncoded []
  | plain {c : Char} {cs : List Char} (hc : c.isAlphanum = true ∨ c ∈ plainSigns)
      (h : FormEncoded cs) : FormEncoded (c :: cs)
  | escape {a b : Char} {cs : List Char} (ha : a ∈ hexDigits) (hb : b ∈ hexDigits)
      (h : FormEncoded cs) : FormEncoded ('%' :: a :: b :: cs)

/-! ### Hexadecimal digits -/

theorem hexValue?_hexDigit : ∀ n < 16, hexValue? (hexDigit n) = some n := by decide

theorem hexDigit_mem : ∀ n < 16, hexDigit n ∈ hexDigits := by decide

/-! ### Characters -/

/-- The number of a letter or digit is below 128. -/
theorem toNat_lt_of_isAlphanum {c : Char} (h : c.isAlphanum = true) : c.toNat < 0x80 := by
  simp only [Char.isAlphanum, Char.isAlpha, Char.isUpper, Char.isLower, Char.isDigit, ge_iff_le,
    Bool.or_eq_true, Bool.and_eq_true, decide_eq_true_eq, UInt32.le_iff_toNat_le] at h
  change ((65 ≤ c.toNat ∧ c.toNat ≤ 90) ∨ (97 ≤ c.toNat ∧ c.toNat ≤ 122)) ∨
    (48 ≤ c.toNat ∧ c.toNat ≤ 57) at h
  omega

/-- A character that stands for itself is no `%`, and all plain signs but `+` stand for
themselves. -/
theorem plain_of_unreserved {c : Char}
    (h : (c.isAlphanum || c = '*' || c = '-' || c = '.' || c = '_') = true) :
    c.toNat < 0x80 ∧ c ≠ '%' ∧ c ≠ '+' ∧ (c.isAlphanum = true ∨ c ∈ plainSigns) := by
  have hsign : c ≠ '%' ∧ c ≠ '+' := by
    constructor
    · rintro rfl
      exact absurd h (by decide)
    · rintro rfl
      exact absurd h (by decide)
  simp only [Bool.or_eq_true, decide_eq_true_eq] at h
  refine ⟨?_, hsign.1, hsign.2, ?_⟩
  · rcases h with (((halnum | rfl) | rfl) | rfl) | rfl
    · exact toNat_lt_of_isAlphanum halnum
    all_goals decide
  · rcases h with (((halnum | rfl) | rfl) | rfl) | rfl
    · exact .inl halnum
    all_goals exact .inr (by decide)

theorem toNat_char (b : UInt8) : (Char.ofNat b.toNat).toNat = b.toNat := by
  have hvalid : b.toNat.isValidChar := .inl (Nat.lt_trans b.toNat_lt (by decide))
  rw [Char.ofNat, dif_pos hvalid]
  rfl

/-! ### Bytes -/

theorem bytes?_cons {c : Char} (hpercent : c ≠ '%') (hplus : c ≠ '+') (cs : List Char) :
    bytes? (c :: cs) = (bytes? cs).map (Utf8.encodeChar c ++ ·) := by
  rw [bytes?]
  · exact fun _ _ _ h => absurd h hpercent
  · exact hpercent
  · exact hplus

theorem bytes?_escape {a b : Char} {high low : Nat} (ha : hexValue? a = some high)
    (hb : hexValue? b = some low) (cs : List Char) :
    bytes? ('%' :: a :: b :: cs) = (bytes? cs).map (UInt8.ofNat (high * 16 + low) :: ·) := by
  rw [bytes?, ha, hb]
  cases bytes? cs <;> rfl

/-- The encoding of a byte is read as the byte, whatever follows. -/
theorem bytes?_encodeByte_append (b : UInt8) (cs : List Char) :
    bytes? (encodeByte b ++ cs) = (bytes? cs).map (b :: ·) := by
  rw [encodeByte]
  by_cases hplain : isUnreserved b = true
  · obtain ⟨hlt, hpercent, hplus, -⟩ := plain_of_unreserved hplain
    rw [toNat_char] at hlt
    have hbyte : Utf8.encodeChar (Char.ofNat b.toNat) = [b] := by
      rw [Utf8.encodeChar, toNat_char, if_pos hlt, UInt8.ofNat_toNat]
    rw [if_pos hplain, List.cons_append, List.nil_append, bytes?_cons hpercent hplus, hbyte]
    rfl
  rw [if_neg hplain]
  by_cases hblank : b = 0x20
  · rw [if_pos hblank, hblank, List.cons_append, List.nil_append, bytes?]
  · have hlt := b.toNat_lt
    have hvalue : UInt8.ofNat (b.toNat / 16 * 16 + b.toNat % 16) = b := by
      rw [Nat.div_add_mod', UInt8.ofNat_toNat]
    rw [if_neg hblank]
    simp only [List.cons_append, List.nil_append]
    rw [bytes?_escape (hexValue?_hexDigit _ (by omega)) (hexValue?_hexDigit _ (by omega)), hvalue]

theorem bytes?_encode (bs : List UInt8) : bytes? (bs.flatMap encodeByte) = some bs := by
  induction bs with
  | nil => rfl
  | cons b bs ih => rw [List.flatMap_cons, bytes?_encodeByte_append, ih, Option.map_some]

/-! ### Form -/

namespace FormEncoded

variable {cs : List Char}

theorem encodeByte_append (h : FormEncoded cs) (b : UInt8) : FormEncoded (encodeByte b ++ cs) := by
  rw [encodeByte]
  split
  · next hplain => exact .plain (plain_of_unreserved hplain).2.2.2 h
  split
  · exact .plain (.inr (by decide)) h
  · have hlt := b.toNat_lt
    exact .escape (hexDigit_mem _ (by omega)) (hexDigit_mem _ (by omega)) h

theorem flatMap_encodeByte (bs : List UInt8) : FormEncoded (bs.flatMap encodeByte) := by
  induction bs with
  | nil => exact .nil
  | cons b bs ih =>
    rw [List.flatMap_cons]
    exact ih.encodeByte_append b

end FormEncoded

/-- **Form encoding is undone by decoding.** The encoding of a text consists of letters, digits,
plain signs and complete escapes, so it passes as well formed. It stands for the bytes in which the
text is stored, and is decoded to the text. -/
theorem decode_encoded (s : String) :
    decode (encode s) = s ∧ FormEncoded (encode s).toList ∧
      bytes? (encode s).toList = some s.toUTF8.data.toList := by
  have hbytes : bytes? (encode s).toList = some (Utf8.encode s.toList) := by
    rw [encode, String.toList_ofList, bytes?_encode]
  refine ⟨?_, ?_, ?_⟩
  · rw [decode, hbytes]
    dsimp only
    rw [Utf8.decode_encode, String.ofList_toList]
  · rw [encode, String.toList_ofList]
    exact .flatMap_encodeByte _
  · rw [hbytes, Utf8.encode_toList]

end GatewayMapping.Text.FormUrl
