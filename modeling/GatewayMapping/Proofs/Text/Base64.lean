import GatewayMapping.Proofs.Text.Utf8
import GatewayMapping.Text.Base64

/-!
# The round trip of base64

The base64 form of a text is made of symbols of the alphabet, with at most two signs of padding
behind them that fill up the last group of four. The padding adds nothing: the symbols stand for
the bytes of the text with all signs behind them, with some of them and with none
(`Text.Base64.decode_padded`).

Three bytes are four symbols, and a group of four symbols is read as its three bytes whatever
follows it. One or two bytes that are left over make the last group, in which the bits behind the
last byte are zero.

## Main definitions

* `Text.Base64.alphabet`: the symbols in the order of their values.

## Main results

* `Text.Base64.decode_padded`: the round trip, whatever is left of the padding.
-/

namespace GatewayMapping.Text.Base64

/-- The symbols in the order of their values. -/
def alphabet : List Char :=
  "ABCDEFGHIJKLMNOPQRSTUVWXYZabcdefghijklmnopqrstuvwxyz0123456789+/".toList

/-! ### Symbols -/

theorem symbol_eq_alphabet : ∀ n < 64, alphabet[n]? = some (symbol n) := by decide

theorem value?_symbol : ∀ n < 64, value? (symbol n) = some n := by decide

theorem symbol_ne_padding : ∀ n < 64, symbol n ≠ '=' := by decide

theorem symbol_mem_alphabet {n : Nat} (h : n < 64) : symbol n ∈ alphabet :=
  List.mem_of_getElem? (symbol_eq_alphabet n h)

/-! ### Groups of symbols -/

/-- The symbols of three bytes are read as the three bytes, whatever follows. -/
theorem bytes?_group (a b c : UInt8) (cs : List Char) :
    let n := (a.toNat * 256 + b.toNat) * 256 + c.toNat
    bytes? (symbol (n / 262144) :: symbol (n / 4096 % 64) :: symbol (n / 64 % 64) ::
      symbol (n % 64) :: cs) = (bytes? cs).map (a :: b :: c :: ·) := by
  intro n
  have := a.toNat_lt
  have := b.toNat_lt
  have := c.toNat_lt
  have hbytes : threeBytes? (symbol (n / 262144)) (symbol (n / 4096 % 64)) (symbol (n / 64 % 64))
      (symbol (n % 64)) = some [a, b, c] := by
    have hn : ((n / 262144 * 64 + n / 4096 % 64) * 64 + n / 64 % 64) * 64 + n % 64 = n := by omega
    have ha : n / 65536 = a.toNat := by omega
    have hb : n / 256 % 256 = b.toNat := by omega
    have hc : n % 256 = c.toNat := by omega
    rw [threeBytes?, value?_symbol _ (by omega), value?_symbol _ (by omega),
      value?_symbol _ (by omega), value?_symbol _ (by omega)]
    simp only [Option.bind_eq_bind, Option.bind_some, hn, ha, hb, hc, UInt8.ofNat_toNat]
    rfl
  have hpad := symbol_ne_padding (n % 64) (by omega)
  cases cs with
  | nil =>
    change _ = some [a, b, c]
    rw [bytes?]
    · exact hbytes
    · exact fun _ h => hpad h
    · exact hpad
  | cons e cs =>
    rw [bytes?, hbytes]
    cases bytes? (e :: cs) <;> rfl

/-- The symbols of one byte are read as the byte with as much padding as there may be. -/
theorem bytes?_one (a : UInt8) {k : Nat} (hk : k ≤ 2) :
    bytes? ([symbol (a.toNat / 4), symbol (a.toNat % 4 * 16)] ++ List.replicate k '=') =
      some [a] := by
  have := a.toNat_lt
  have hbyte : oneByte? (symbol (a.toNat / 4)) (symbol (a.toNat % 4 * 16)) = some [a] := by
    have hn : a.toNat / 4 * 64 + a.toNat % 4 * 16 = a.toNat * 16 := by omega
    have hleft : a.toNat * 16 % 16 = 0 := by omega
    have ha : a.toNat * 16 / 16 = a.toNat := by omega
    rw [oneByte?, value?_symbol _ (by omega), value?_symbol _ (by omega)]
    simp only [Option.bind_eq_bind, Option.bind_some, hn, hleft, if_true, ha, UInt8.ofNat_toNat]
  match k, hk with
  | 0, _ => exact hbyte
  | 1, _ => exact hbyte
  | 2, _ => exact hbyte

/-- The symbols of two bytes are read as the bytes with as much padding as there may be. -/
theorem bytes?_two (a b : UInt8) {k : Nat} (hk : k ≤ 1) :
    let n := a.toNat * 256 + b.toNat
    bytes? ([symbol (n / 1024), symbol (n / 16 % 64), symbol (n % 16 * 4)] ++
      List.replicate k '=') = some [a, b] := by
  intro n
  have := a.toNat_lt
  have := b.toNat_lt
  have hbytes : twoBytes? (symbol (n / 1024)) (symbol (n / 16 % 64)) (symbol (n % 16 * 4)) =
      some [a, b] := by
    have hn : (n / 1024 * 64 + n / 16 % 64) * 64 + n % 16 * 4 = n * 4 := by omega
    have hleft : n * 4 % 4 = 0 := by omega
    have ha : n * 4 / 1024 = a.toNat := by omega
    have hb : n * 4 / 4 % 256 = b.toNat := by omega
    rw [twoBytes?, value?_symbol _ (by omega), value?_symbol _ (by omega),
      value?_symbol _ (by omega)]
    simp only [Option.bind_eq_bind, Option.bind_some, hn, hleft, if_true, ha, hb,
      UInt8.ofNat_toNat]
  have hpad := symbol_ne_padding (n % 16 * 4) (by omega)
  match k, hk with
  | 0, _ =>
    rw [List.replicate_zero, List.append_nil, bytes?]
    · exact hbytes
    · exact hpad
  | 1, _ =>
    rw [List.replicate_one, List.cons_append, List.cons_append, List.cons_append, List.nil_append,
      bytes?]
    · exact hbytes
    · exact hpad

/-! ### The round trip -/

/-- The symbols stand for the bytes with any part of the padding, all of which fills up the last
group. -/
structure Spells (symbols : List Char) (padding : Nat) (bs : List UInt8) : Prop where
  written : encodeBytes bs = symbols ++ List.replicate padding '='
  groups : (symbols.length + padding) % 4 = 0
  padding_lt : padding < 3
  mem_alphabet : ∀ c ∈ symbols, c ∈ alphabet
  read : ∀ k ≤ padding, bytes? (symbols ++ List.replicate k '=') = some bs

theorem exists_spells : (bs : List UInt8) → ∃ symbols padding, Spells symbols padding bs
  | [] => ⟨[], 0, rfl, rfl, by decide, nofun, fun _ hk => Nat.le_zero.mp hk ▸ rfl⟩
  | [a] => by
    have := a.toNat_lt
    refine ⟨_, 2, rfl, by simp, by decide, ?_, fun k hk => bytes?_one a hk⟩
    simp only [List.forall_mem_cons, List.not_mem_nil, false_imp_iff, implies_true, and_true]
    exact ⟨symbol_mem_alphabet (by omega), symbol_mem_alphabet (by omega)⟩
  | [a, b] => by
    have := a.toNat_lt
    have := b.toNat_lt
    refine ⟨_, 1, rfl, by simp, by decide, ?_, fun k hk => bytes?_two a b hk⟩
    simp only [List.forall_mem_cons, List.not_mem_nil, false_imp_iff, implies_true, and_true]
    exact ⟨symbol_mem_alphabet (by omega), symbol_mem_alphabet (by omega),
      symbol_mem_alphabet (by omega)⟩
  | a :: b :: c :: bs => by
    have := a.toNat_lt
    have := b.toNat_lt
    have := c.toNat_lt
    obtain ⟨symbols, padding, h⟩ := exists_spells bs
    let n := (a.toNat * 256 + b.toNat) * 256 + c.toNat
    refine ⟨symbol (n / 262144) :: symbol (n / 4096 % 64) :: symbol (n / 64 % 64) ::
      symbol (n % 64) :: symbols, padding, ?_, ?_, h.padding_lt, ?_, fun k hk => ?_⟩
    · rw [encodeBytes, h.written]
      rfl
    · have := h.groups
      simp only [List.length_cons]
      omega
    · simp only [List.forall_mem_cons]
      exact ⟨symbol_mem_alphabet (by omega), symbol_mem_alphabet (by omega),
        symbol_mem_alphabet (by omega), symbol_mem_alphabet (by omega), h.mem_alphabet⟩
    · have hgroup := bytes?_group a b c (symbols ++ List.replicate k '=')
      rw [h.read k hk] at hgroup
      exact hgroup

/-- **Base64 is undone by decoding, with and without the padding.** The base64 form of a text is
made of symbols of the alphabet and at most two signs of padding behind them, in groups of four.
With all signs of padding, with fewer and with none, the symbols stand for the bytes in which the
text is stored, and are decoded to the text. -/
theorem decode_padded (s : String) :
    ∃ (symbols : List Char) (padding : Nat),
      (encode s).toList = symbols ++ List.replicate padding '=' ∧ padding < 3 ∧
      (symbols.length + padding) % 4 = 0 ∧ (∀ c ∈ symbols, c ∈ alphabet) ∧
      ∀ k ≤ padding, decode (String.ofList (symbols ++ List.replicate k '=')) = s ∧
        bytes? (symbols ++ List.replicate k '=') = some s.toUTF8.data.toList := by
  obtain ⟨symbols, padding, h⟩ := exists_spells (Utf8.encode s.toList)
  refine ⟨symbols, padding, ?_, h.padding_lt, h.groups, h.mem_alphabet, fun k hk => ⟨?_, ?_⟩⟩
  · rw [encode, String.toList_ofList, h.written]
  · rw [decode, String.toList_ofList, h.read k hk]
    dsimp only
    rw [Utf8.decode_encode, String.ofList_toList]
  · rw [h.read k hk, Utf8.encode_toList]

end GatewayMapping.Text.Base64
