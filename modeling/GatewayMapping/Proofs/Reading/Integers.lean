import Mathlib.Data.List.TakeWhile
import Mathlib.Tactic.IntervalCases
import GatewayMapping.Json.Reader
import GatewayMapping.Text.WholeNumber

/-!
# Reading whole numbers

The decimal text of a whole number has no leading zero, and every reader of numbers gives the
number back: the one of signed digits (`Text.wholeNumber?_toString`) and, where 64 bits hold the
number, the one of documents (`Json.parse_toString`).
-/

namespace GatewayMapping

/-- A sequence whose first part is known goes on with its second part. -/
theorem bind_eq_of_ok {σ ε α β : Type} {x : StateT σ (Except ε) α} {s left : σ} {a : α}
    (h : x s = .ok (a, left)) (f : α → StateT σ (Except ε) β) : (x >>= f) s = f a left := by
  change Except.bind (x s) _ = _
  rw [h]
  rfl

/-- A sequence whose first part fails, fails. -/
theorem bind_eq_of_error {σ ε α β : Type} {x : StateT σ (Except ε) α} {s : σ} {e : ε}
    (h : x s = .error e) (f : α → StateT σ (Except ε) β) : (x >>= f) s = .error e := by
  change Except.bind (x s) _ = _
  rw [h]
  rfl

/-- Characters of a class end where a text does not go on with one. -/
theorem takeWhile_append_eq {p : Char → Bool} {cs rest : List Char} (hcs : ∀ c ∈ cs, p c = true)
    (hrest : ∀ c, rest.head? = some c → p c = false) :
    (cs ++ rest).takeWhile p = cs ∧ (cs ++ rest).dropWhile p = rest := by
  rw [List.takeWhile_append_of_pos hcs, List.dropWhile_append_of_pos hcs]
  cases rest with
  | nil => exact ⟨List.append_nil cs, rfl⟩
  | cons c rest =>
    have hc : ¬p c = true := Bool.eq_false_iff.mp (hrest c rfl)
    rw [List.takeWhile_cons_of_neg hc, List.dropWhile_cons_of_neg hc]
    exact ⟨List.append_nil cs, rfl⟩

/-! ### Digits -/

theorem digitsValue_toDigits (m : Nat) : Json.Read.digitsValue (Nat.toDigits 10 m) = m := by
  have h := Nat.ofDigitChars_ten_toDigits (n := m)
  rw [Nat.ofDigitChars_eq_foldl] at h
  simp only [Nat.mul_comm 10] at h
  exact h

theorem isDigit_of_mem_toDigits {m : Nat} {c : Char} (h : c ∈ Nat.toDigits 10 m) :
    c.isDigit = true :=
  Nat.isDigit_of_mem_toDigits (by decide) (by decide) h

/-- A number begins with a digit. -/
theorem toDigits_head (m : Nat) :
    ∃ c rest, Nat.toDigits 10 m = c :: rest ∧ c.isDigit = true := by
  obtain ⟨c, rest, hcs⟩ := List.exists_cons_of_ne_nil (Nat.toDigits_ne_nil (b := 10) (n := m))
  exact ⟨c, rest, hcs, isDigit_of_mem_toDigits (hcs ▸ List.mem_cons_self)⟩

/-- Only the number zero begins with a zero. -/
theorem eq_zero_of_toDigits_head {m : Nat} {rest : List Char}
    (h : Nat.toDigits 10 m = '0' :: rest) : m = 0 := by
  induction m using Nat.strongRecOn generalizing rest with
  | ind m ih =>
    rw [Nat.toDigits_eq_if (by decide)] at h
    split at h
    · next hlt =>
      have hdigit := (List.cons.inj h).1
      interval_cases m <;> first | rfl | exact absurd hdigit (by decide)
    · next hge =>
      obtain ⟨d, ds, hds, -⟩ := toDigits_head (m / 10)
      rw [hds, List.cons_append] at h
      obtain ⟨rfl, -⟩ := List.cons.inj h
      have := ih (m / 10) (by omega) hds
      omega

/-- The decimal text of a whole number is its digits, after a sign if it is negative. -/
theorem toList_toString_int (n : Int) :
    (toString n).toList =
      if n < 0 then '-' :: Nat.toDigits 10 n.natAbs else Nat.toDigits 10 n.natAbs := by
  cases n with
  | ofNat m => exact Nat.toList_repr
  | negSucc m =>
    rw [if_pos (Int.negSucc_lt_zero m)]
    change ("-" ++ (m + 1).repr).toList = _
    rw [String.toList_append, Nat.toList_repr]
    rfl

theorem isDigit_or_minus_of_mem_toString {n : Int} {c : Char} (h : c ∈ (toString n).toList) :
    c.isDigit = true ∨ c = '-' := by
  rw [toList_toString_int] at h
  split at h
  · exact (List.mem_cons.mp h).symm.imp_left isDigit_of_mem_toDigits
  · exact .inl (isDigit_of_mem_toDigits h)

namespace Text

theorem digitsNumber?_toDigits (m : Nat) : digitsNumber? (Nat.toDigits 10 m) = some m := by
  have hall : (Nat.toDigits 10 m).all Char.isDigit = true :=
    List.all_eq_true.mpr fun _ h => isDigit_of_mem_toDigits h
  have hne : (Nat.toDigits 10 m).isEmpty = false :=
    List.isEmpty_eq_false_iff.mpr Nat.toDigits_ne_nil
  rw [digitsNumber?, hall, hne, if_neg (by decide)]
  exact congrArg some (digitsValue_toDigits m)

theorem wholeNumber?_of_isDigit {c : Char} (hc : c.isDigit = true) (cs : List Char) :
    wholeNumber? (c :: cs) = (digitsNumber? (c :: cs)).map Int.ofNat := by
  unfold wholeNumber?
  split
  · next heq =>
    cases heq
    cases hc
  · next heq =>
    cases heq
    cases hc
  · rfl

/-- A number is read from its decimal text. -/
theorem wholeNumber?_toString (n : Int) : wholeNumber? (toString n).toList = some n := by
  rw [toList_toString_int]
  split
  · next hn =>
    have hvalue : -(n.natAbs : Int) = n := by omega
    rw [wholeNumber?, digitsNumber?_toDigits]
    exact congrArg some hvalue
  · next hn =>
    obtain ⟨c, rest, hcs, hc⟩ := toDigits_head n.natAbs
    have hvalue : (n.natAbs : Int) = n := by omega
    rw [hcs, wholeNumber?_of_isDigit hc, ← hcs, digitsNumber?_toDigits, Option.map_some]
    exact congrArg some hvalue

end Text

namespace Json

/-- A whole number that stands before the text ends there. -/
def EndsNumber (cs : List Char) : Prop :=
  ∀ c, cs.head? = some c → c.isDigit = false ∧ c ≠ '.' ∧ c ≠ 'e' ∧ c ≠ 'E'

theorem endsNumber_nil : EndsNumber [] := nofun

/-- Digits are taken to their end. -/
theorem Read.takeWhile_isDigit {ds rest : List Char} (hds : ∀ c ∈ ds, c.isDigit = true)
    (hrest : ∀ c, rest.head? = some c → c.isDigit = false) :
    Read.takeWhile Char.isDigit (ds ++ rest) = .ok (ds, rest) := by
  obtain ⟨htake, hdrop⟩ := takeWhile_append_eq hds hrest
  rw [Read.takeWhile, htake, hdrop]

/-- The digits before the point are taken to their end: after a zero none follows. -/
theorem Read.wholeDigits_append {c : Char} {cs rest : List Char}
    (hcs : ∀ d ∈ c :: cs, d.isDigit = true) (hzero : c = '0' → cs = [])
    (hrest : ∀ d, rest.head? = some d → d.isDigit = false) :
    Read.wholeDigits c (c :: cs ++ rest) = .ok (c :: cs, rest) := by
  unfold Read.wholeDigits
  split
  · next hc =>
    rw [hzero hc]
    rfl
  · exact takeWhile_isDigit hcs hrest

theorem Read.wholeDigits_toDigits {m : Nat} {c : Char} {cs rest : List Char}
    (h : Nat.toDigits 10 m = c :: cs) (hrest : EndsNumber rest) :
    Read.wholeDigits c (c :: cs ++ rest) = .ok (c :: cs, rest) := by
  refine wholeDigits_append (fun d hd => isDigit_of_mem_toDigits (h ▸ hd)) ?_
    fun d hd => (hrest d hd).1
  rintro rfl
  obtain rfl := eq_zero_of_toDigits_head h
  exact (List.cons.inj h).2.symm

/-- A number without fraction and exponent is whole. -/
theorem Read.number_toDigits (negative : Bool) (m : Nat) {rest : List Char}
    (hrest : EndsNumber rest) :
    Read.number negative (Nat.toDigits 10 m ++ rest) = Read.whole negative m rest := by
  obtain ⟨c, cs, hcs, hc⟩ := toDigits_head m
  have hvalue := digitsValue_toDigits m
  have hpeek : Read.peek? (c :: cs ++ rest) = .ok (some c, c :: cs ++ rest) := rfl
  rw [hcs] at hvalue ⊢
  rw [Read.number, bind_eq_of_ok hpeek]
  simp only [hc, if_true]
  rw [bind_eq_of_ok (Read.wholeDigits_toDigits hcs hrest),
    bind_eq_of_ok (show Read.peek? rest = .ok (rest.head?, rest) from rfl), hvalue]
  cases rest with
  | nil => rfl
  | cons d ds =>
    obtain ⟨hd, hpoint, hsmall, hlarge⟩ := hrest d rfl
    simp [hd]

/-- A minus begins a number with a sign. -/
theorem Read.valueWith_minus (nested : Option (Read Json)) (cs : List Char) :
    Read.valueWith nested ('-' :: cs) = Read.number true cs :=
  rfl

/-- A digit begins a number without a sign. -/
theorem Read.valueWith_digit (nested : Option (Read Json)) {c : Char} (hc : c.isDigit = true)
    (cs : List Char) : Read.valueWith nested (c :: cs) = Read.number false (c :: cs) := by
  have hne {d : Char} (hd : d.isDigit = false) : c ≠ d := by
    rintro rfl
    rw [hc] at hd
    cases hd
  have hspace : ¬Read.isSpace c = true := by
    simp only [Read.isSpace, Bool.or_eq_true, decide_eq_true_eq]
    exact not_or.mpr ⟨not_or.mpr ⟨not_or.mpr ⟨hne rfl, hne rfl⟩, hne rfl⟩, hne rfl⟩
  have hnext : Read.next? (c :: cs) = .ok (some c, c :: cs) := by
    change Read.peek? ((c :: cs).dropWhile Read.isSpace) = _
    rw [List.dropWhile_cons_of_neg hspace]
    rfl
  unfold Read.valueWith
  rw [bind_eq_of_ok hnext]
  refine congrFun (?_ : _ = Read.number false) (c :: cs)
  -- every other character that begins a document is no digit
  cases nested <;> dsimp only <;> split <;> rename_i heq <;> cases heq <;>
    first | cases hc | exact if_pos hc

/-- A whole number that 64 bits hold, with a sign or without, is read from its decimal text. -/
theorem Read.valueWith_toString (nested : Option (Read Json)) {n : Int} (hmin : -2 ^ 63 ≤ n)
    (hmax : n < 2 ^ 64) {rest : List Char} (hrest : EndsNumber rest) :
    Read.valueWith nested ((toString n).toList ++ rest) = .ok (.int n, rest) := by
  rw [toList_toString_int]
  split
  · next hn =>
    have hwhole : Read.whole true n.natAbs rest = .ok (.int (-(n.natAbs : Int)), rest) := by
      have hfits : (0 < n.natAbs && n.natAbs ≤ Nat.pow 2 63) = true := by
        rw [Bool.and_eq_true, decide_eq_true_eq, decide_eq_true_eq]
        change 0 < n.natAbs ∧ n.natAbs ≤ 9223372036854775808
        omega
      rw [Read.whole, if_pos rfl, if_pos hfits]
      rfl
    have habs : -(n.natAbs : Int) = n := by omega
    rw [List.cons_append, Read.valueWith_minus, Read.number_toDigits _ _ hrest, hwhole, habs]
  · next hn =>
    obtain ⟨c, cs, hcs, hc⟩ := toDigits_head n.natAbs
    have hwhole : Read.whole false n.natAbs rest = .ok (.int n.natAbs, rest) := by
      rw [Read.whole, if_neg (by decide), if_pos (by change _ < 18446744073709551616; omega)]
      rfl
    have habs : (n.natAbs : Int) = n := by omega
    rw [hcs, List.cons_append, Read.valueWith_digit _ hc, ← List.cons_append, ← hcs,
      Read.number_toDigits _ _ hrest, hwhole, habs]

/-- A text is a document if one is read from it and nothing is left. -/
theorem parse_of_value {text : String} {j : Json}
    (h : Read.value greatestDepth text.toList = .ok (j, [])) : parse text = .ok j := by
  have hdocument : Read.document text.toList = .ok (j, []) := by
    rw [Read.document, bind_eq_of_ok h]
    rfl
  rw [parse, hdocument]

/-- The decimal text of such a number is a document. -/
theorem parse_toString {n : Int} (hmin : -2 ^ 63 ≤ n) (hmax : n < 2 ^ 64) :
    parse (toString n) = .ok (.int n) := by
  refine parse_of_value ?_
  rw [greatestDepth, Read.value, ← List.append_nil (toString n).toList]
  exact Read.valueWith_toString _ hmin hmax endsNumber_nil

end Json
end GatewayMapping
