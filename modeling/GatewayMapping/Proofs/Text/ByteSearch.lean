import GatewayMapping.Proofs.Text.Occurrences
import GatewayMapping.Proofs.Text.Utf8

/-!
# Searching bytes

A text that is searched for by its bytes is found where it is searched for by its characters
(`Text.indexOf?_encode`, `Text.lastIndexOf?_encode`), at the byte where its first character begins.
No byte that begins a character continues one (`Text.Utf8.IsContinuation`), so the bytes of a
text that is not empty cannot begin inside a character. The bytes of the empty text can, but it is
found at the beginning or at the end.

Cutting a text at the bytes where characters begin cuts it into characters
(`Text.Utf8.takeBytes_size_take`, `Text.Utf8.dropBytes_size_take`).

## Main definitions

* `Text.Utf8.IsContinuation`: the bytes of a character after its first one.
-/

namespace GatewayMapping.Text

namespace Utf8

variable {c : Char} {cs ds : List Char} {n : Nat}

/-! ### Sizes -/

theorem length_encodeChar (c : Char) : (encodeChar c).length = c.utf8Size := by
  rw [encodeChar_eq, String.length_utf8EncodeChar]

theorem encode_nil : encode [] = [] := rfl

theorem encode_cons (c : Char) (cs : List Char) : encode (c :: cs) = encodeChar c ++ encode cs :=
  List.flatMap_cons

theorem encode_append (cs ds : List Char) : encode (cs ++ ds) = encode cs ++ encode ds :=
  List.flatMap_append

theorem length_encode (cs : List Char) : (encode cs).length = size cs := by
  induction cs with
  | nil => rfl
  | cons c cs ih => rw [encode_cons, List.length_append, length_encodeChar, ih, size]

theorem size_append (cs ds : List Char) : size (cs ++ ds) = size cs + size ds := by
  rw [← length_encode, encode_append, List.length_append, length_encode, length_encode]

/-- The byte where a character begins. -/
theorem size_take_mono (cs : List Char) : Monotone fun k => size (cs.take k) := by
  intro j k hjk
  obtain ⟨ds, hds⟩ := List.take_prefix_take_left (l := cs) hjk
  simp only [← hds, size_append]
  exact Nat.le_add_right _ _

theorem size_take_le (cs : List Char) (k : Nat) : size (cs.take k) ≤ size cs := by
  conv_rhs => rw [← List.take_append_drop k cs, size_append]
  exact Nat.le_add_right _ _

theorem takeBytes_size (cs ds : List Char) : takeBytes (size cs) (cs ++ ds) = cs := by
  induction cs with
  | nil =>
    cases ds with
    | nil => rfl
    | cons d ds => exact if_neg (Nat.not_le_of_lt d.utf8Size_pos)
  | cons c cs ih =>
    rw [List.cons_append, takeBytes, size, if_pos (Nat.le_add_right _ _), Nat.add_sub_cancel_left,
      ih]

theorem dropBytes_size (cs ds : List Char) : dropBytes (size cs) (cs ++ ds) = ds := by
  induction cs with
  | nil =>
    cases ds with
    | nil => rfl
    | cons d ds => exact if_neg (Nat.not_le_of_lt d.utf8Size_pos)
  | cons c cs ih =>
    rw [List.cons_append, dropBytes, size, if_pos (Nat.le_add_right _ _), Nat.add_sub_cancel_left,
      ih]

/-- Cutting before the byte where a character begins. -/
theorem takeBytes_size_take (cs : List Char) (k : Nat) :
    takeBytes (size (cs.take k)) cs = cs.take k := by
  simpa only [List.take_append_drop] using takeBytes_size (cs.take k) (cs.drop k)

theorem dropBytes_size_take (cs : List Char) (k : Nat) :
    dropBytes (size (cs.take k)) cs = cs.drop k := by
  simpa only [List.take_append_drop] using dropBytes_size (cs.take k) (cs.drop k)

/-! ### Bytes inside a character -/

/-- A byte that continues a character. -/
def IsContinuation (b : UInt8) : Prop := 0x80 ≤ b.toNat ∧ b.toNat < 0xC0

/-- The first byte of a character does not continue one, and all others do. -/
theorem exists_encodeChar_eq (c : Char) : ∃ first rest, encodeChar c = first :: rest ∧
    ¬IsContinuation first ∧ ∀ b ∈ rest, IsContinuation b := by
  have hlast (k : Nat) : IsContinuation (UInt8.ofNat (0x80 + k % 64)) := by
    have hbyte : 0x80 + k % 64 < 256 := by omega
    rw [IsContinuation, UInt8.toNat_ofNat_of_lt' hbyte]
    omega
  have hvalid := toNat_valid c
  have hfirst {k : Nat} (hk : k < 0x80 ∨ 0xC0 ≤ k) (hlt : k < 256) :
      ¬IsContinuation (UInt8.ofNat k) := by
    rw [IsContinuation, UInt8.toNat_ofNat_of_lt' hlt]
    omega
  rw [encodeChar]
  split_ifs with h₁ h₂ h₃
  · exact ⟨_, [], rfl, hfirst (by omega) (by omega), List.forall_mem_nil _⟩
  all_goals
    refine ⟨_, _, rfl, hfirst (by omega) (by omega), ?_⟩
    simp only [List.mem_cons, List.not_mem_nil, or_false, forall_eq_or_imp, forall_eq, hlast,
      and_self]

/-- A byte that does not continue a character begins one. -/
theorem exists_size_take {b : UInt8} (h : (encode cs)[n]? = some b) (hb : ¬IsContinuation b) :
    ∃ k < cs.length, size (cs.take k) = n := by
  induction cs generalizing n with
  | nil => cases h
  | cons c cs ih =>
    obtain ⟨first, rest, hchar, -, hrest⟩ := exists_encodeChar_eq c
    rw [encode_cons] at h
    rcases Nat.lt_or_ge n (encodeChar c).length with hn | hn
    · rw [List.getElem?_append_left hn, hchar] at h
      cases n with
      | zero => exact ⟨0, Nat.succ_pos _, rfl⟩
      | succ n => exact absurd (hrest b (List.mem_of_getElem? h)) hb
    · rw [List.getElem?_append_right hn] at h
      obtain ⟨k, hk, hsize⟩ := ih h
      refine ⟨k + 1, Nat.succ_lt_succ hk, ?_⟩
      rw [List.take_succ_cons, size, hsize, ← length_encodeChar]
      omega

/-- The bytes of a text begin with those of another one if the text does. -/
theorem encode_prefix_iff : encode cs <+: encode ds ↔ cs <+: ds := by
  constructor
  · intro h
    induction cs generalizing ds with
    | nil => exact List.nil_prefix
    | cons c cs ih =>
      obtain ⟨bs, hbs⟩ := h
      rw [encode_cons, List.append_assoc] at hbs
      cases ds with
      | nil =>
        have hempty := (List.append_eq_nil_iff.mp hbs).1
        obtain ⟨first, rest, hchar, -⟩ := exists_encodeChar_eq c
        cases hchar.symm.trans hempty
      | cons d ds =>
        rw [encode_cons] at hbs
        have hread := congrArg (decodeFrom none) hbs
        rw [decodeFrom_encodeChar_append, decodeFrom_encodeChar_append] at hread
        obtain ⟨rfl, -⟩ := List.cons.inj hread
        exact List.cons_prefix_cons.mpr ⟨rfl, ih ⟨bs, List.append_cancel_left hbs⟩⟩
  · rintro ⟨rest, rfl⟩
    exact ⟨encode rest, (encode_append cs rest).symm⟩

end Utf8

/-! ### Positions of bytes and of characters -/

section

open Utf8

variable {needle cs : List Char} {n : Nat}

/-- Behind the bytes of some characters stand the bytes of the others. -/
theorem drop_encode (cs : List Char) (k : Nat) :
    (encode cs).drop (size (cs.take k)) = encode (cs.drop k) := by
  have hcut : encode cs = encode (cs.take k) ++ encode (cs.drop k) := by
    rw [← encode_append, List.take_append_drop]
  rw [hcut, ← length_encode, List.drop_left]

/-- The bytes of a text that is not empty begin where the text does. -/
theorem beginsAt_encode_iff (hneedle : needle ≠ []) : BeginsAt (encode needle) (encode cs) n ↔
    ∃ k, BeginsAt needle cs k ∧ size (cs.take k) = n := by
  constructor
  · rintro ⟨-, hstarts⟩
    obtain ⟨c, needle, rfl⟩ := List.exists_cons_of_ne_nil hneedle
    obtain ⟨first, rest, hchar, hfirst, -⟩ := exists_encodeChar_eq c
    have hbyte : (encode cs)[n]? = some first := by
      obtain ⟨bs, hbs⟩ := hstarts
      rw [← Nat.add_zero n, ← List.getElem?_drop, ← hbs, encode_cons, hchar]
      rfl
    obtain ⟨k, hk, rfl⟩ := exists_size_take hbyte hfirst
    rw [drop_encode, encode_prefix_iff] at hstarts
    exact ⟨k, ⟨Nat.le_of_lt hk, hstarts⟩, rfl⟩
  · rintro ⟨k, ⟨hk, hstarts⟩, rfl⟩
    refine ⟨?_, drop_encode cs k ▸ encode_prefix_iff.mpr hstarts⟩
    rw [length_encode]
    exact size_take_le cs k

theorem setOf_beginsAt_encode (hneedle : needle ≠ []) :
    {n | BeginsAt (encode needle) (encode cs) n} =
      (fun k => size (cs.take k)) '' {k | BeginsAt needle cs k} :=
  Set.ext fun _ => beginsAt_encode_iff hneedle

/-- The first byte at which a text is found is that of the first character. -/
theorem indexOf?_encode (needle cs : List Char) :
    indexOf? (encode needle) (encode cs) = (indexOf? needle cs).map fun k => size (cs.take k) := by
  by_cases hneedle : needle = []
  · subst hneedle
    rw [encode_nil, indexOf?_nil, indexOf?_nil]
    rfl
  · refine (indexOf?_spec _ _).eq ?_
    rw [setOf_beginsAt_encode hneedle]
    exact (indexOf?_spec needle cs).map (size_take_mono cs)

/-- The last byte at which a text is found is that of the last character. -/
theorem lastIndexOf?_encode (needle cs : List Char) : lastIndexOf? (encode needle) (encode cs) =
    (lastIndexOf? needle cs).map fun k => size (cs.take k) := by
  by_cases hneedle : needle = []
  · subst hneedle
    rw [encode_nil, lastIndexOf?_nil, lastIndexOf?_nil, length_encode, Option.map_some,
      List.take_length]
  · refine (lastIndexOf?_spec _ _).eq ?_
    rw [setOf_beginsAt_encode hneedle]
    exact (lastIndexOf?_spec needle cs).map (size_take_mono cs)

end

end GatewayMapping.Text
