import Mathlib.Data.String.Basic
import GatewayMapping.Proofs.Text.Utf8

/-!
# The order of texts and of their bytes

Texts are in the order of their first characters that differ, and bytes in the order of their first
bytes that differ. Both orders are the same (`Text.Utf8.encode_lt_encode_iff`), since the first byte
of a character is the greater the more bytes there are, and the bits of a character are written from
the highest one on.
-/

namespace GatewayMapping.Text

theorem char_lt_iff {c d : Char} : c < d ↔ c.toNat < d.toNat := UInt32.lt_iff_toNat_lt

namespace Utf8

variable {c d : Char} {cs ds : List Char} {bs bs' : List UInt8} {k lead m n : Nat}

/-! ### Characters -/

/-- The bytes after the first one: the last bits of a number, six in each. -/
private def sextets : Nat → Nat → List UInt8
  | 0, _ => []
  | k + 1, n => UInt8.ofNat (0x80 + n / 64 ^ k % 64) :: sextets k n

/-- A character is a first byte, which tells how many there are, and the rest of its bits. -/
private theorem encodeChar_eq_sextets (c : Char) :
    encodeChar c =
      if c.toNat < 0x80 then [UInt8.ofNat c.toNat]
      else if c.toNat < 0x800 then UInt8.ofNat (0xC0 + c.toNat / 64 ^ 1) :: sextets 1 c.toNat
      else if c.toNat < 0x10000 then UInt8.ofNat (0xE0 + c.toNat / 64 ^ 2) :: sextets 2 c.toNat
      else UInt8.ofNat (0xF0 + c.toNat / 64 ^ 3) :: sextets 3 c.toNat := by
  simp only [encodeChar, sextets, Nat.reducePow, Nat.div_one]

/-- Bytes are in the order of their numbers; bytes that are the same leave it to what follows. -/
private theorem byte_cons_lt (hm : m < 256) (hn : n < 256) (h : m < n ∨ m = n ∧ bs < bs') :
    UInt8.ofNat m :: bs < UInt8.ofNat n :: bs' := by
  rw [List.cons_lt_cons_iff, UInt8.ofNat_lt_iff_lt hm hn]
  exact h.imp_right fun h => ⟨congrArg UInt8.ofNat h.1, h.2⟩

private theorem sextets_append_lt (h : m % 64 ^ k < n % 64 ^ k) :
    sextets k m ++ bs < sextets k n ++ bs' := by
  induction k with
  | zero =>
    rw [pow_zero, Nat.mod_one, Nat.mod_one] at h
    exact absurd h (lt_irrefl 0)
  | succ k ih =>
    rw [Nat.mod_pow_succ, Nat.mod_pow_succ] at h
    refine byte_cons_lt (by omega) (by omega) ?_
    rcases lt_trichotomy (m / 64 ^ k % 64) (n / 64 ^ k % 64) with hlt | heq | hgt
    · exact .inl (by omega)
    · rw [heq] at h ⊢
      exact .inr ⟨rfl, ih (lt_of_add_lt_add_right h)⟩
    · -- The six bits in front weigh more than all that follow.
      have hm := Nat.mod_lt m (Nat.pow_pos (n := k) (by decide : 0 < 64))
      have hle := Nat.mul_le_mul_left (64 ^ k) (Nat.succ_le_of_lt hgt)
      rw [Nat.mul_succ] at hle
      omega

/-- Numbers that are written with as many bytes are in the order of these bytes. -/
private theorem lead_cons_lt (h : m < n) (hm : lead + m / 64 ^ k < 256)
    (hn : lead + n / 64 ^ k < 256) :
    UInt8.ofNat (lead + m / 64 ^ k) :: (sextets k m ++ bs) <
      UInt8.ofNat (lead + n / 64 ^ k) :: (sextets k n ++ bs') := by
  refine byte_cons_lt hm hn ?_
  rcases (Nat.div_le_div_right h.le : m / 64 ^ k ≤ n / 64 ^ k).lt_or_eq with hlt | heq
  · exact .inl (by omega)
  · refine .inr ⟨by rw [heq], sextets_append_lt ?_⟩
    have hm := Nat.div_add_mod m (64 ^ k)
    have hn := Nat.div_add_mod n (64 ^ k)
    rw [heq] at hm
    omega

/-- The lesser one of two characters has the lesser bytes, whatever follows them. -/
theorem encodeChar_append_lt (h : c < d) (bs bs' : List UInt8) :
    encodeChar c ++ bs < encodeChar d ++ bs' := by
  have hd := toNat_valid d
  rw [char_lt_iff] at h
  rw [encodeChar_eq_sextets, encodeChar_eq_sextets]
  generalize c.toNat = m at h ⊢
  generalize d.toNat = n at h hd ⊢
  by_cases h₁ : m < 0x80
  · rw [if_pos h₁]
    split_ifs <;> exact byte_cons_lt (by omega) (by omega) (.inl (by omega))
  by_cases h₂ : m < 0x800
  · rw [if_neg h₁, if_pos h₂, if_neg (by omega)]
    split_ifs
    · exact lead_cons_lt h (by omega) (by omega)
    all_goals exact byte_cons_lt (by omega) (by omega) (.inl (by omega))
  by_cases h₃ : m < 0x10000
  · rw [if_neg h₁, if_neg h₂, if_pos h₃, if_neg (by omega), if_neg (by omega)]
    split_ifs
    · exact lead_cons_lt h (by omega) (by omega)
    · exact byte_cons_lt (by omega) (by omega) (.inl (by omega))
  · rw [if_neg h₁, if_neg h₂, if_neg h₃, if_neg (by omega), if_neg (by omega), if_neg (by omega)]
    exact lead_cons_lt h (by omega) (by omega)

/-! ### Texts -/

theorem encode_lt_encode (h : cs < ds) : encode cs < encode ds := by
  induction h with
  | nil =>
    rw [encode, encode, List.flatMap_cons, encodeChar_eq_sextets]
    split_ifs <;> exact .nil
  | rel h => exact encodeChar_append_lt h _ _
  | cons h ih => exact List.Lex.append_left _ ih _

/-- **Texts are in the order of their bytes.** -/
theorem encode_lt_encode_iff : encode cs < encode ds ↔ cs < ds := by
  refine ⟨fun h => ?_, encode_lt_encode⟩
  rcases lt_trichotomy cs ds with hlt | heq | hgt
  · exact hlt
  · exact absurd (heq ▸ h) (List.lt_irrefl _)
  · exact absurd (encode_lt_encode hgt) (List.lt_asymm h)

/-- Strings are in the order of the bytes that they are stored in. -/
theorem bytes_lt_bytes_iff {s t : String} :
    s.toUTF8.data.toList < t.toUTF8.data.toList ↔ s < t := by
  rw [← encode_toList, ← encode_toList, encode_lt_encode_iff, String.lt_iff_toList_lt]

end Utf8
end GatewayMapping.Text
