import GatewayMapping.Proofs.Json.Documents
import GatewayMapping.Proofs.Reading.Integers

/-!
# The texts of numbers

A number is written as a sign, a whole part without leading zeros, a fraction and an exponent, of
which all but the whole part may be missing. What a reader finds in such a text is a number and
never NaN; a text that ends with the mark of the exponent holds no number.

## Main definitions

* `NumberText`: the texts of numbers.

## Main results

* `NumberText.isNumber_of_parse`: what such a text holds is a number.
* `NumberText.exists_parse_cut_eq_error`: an exponent needs its digits.
-/

namespace GatewayMapping.Json

/-! ### The grammar -/

/-- One decimal digit or more. -/
structure Digits where
  /-- The first digit. -/
  first : Char
  /-- The digits after the first one. -/
  rest : List Char
  isDigit : ∀ c ∈ first :: rest, c.isDigit = true

/-- The digits before the point: a zero stands alone. -/
structure WholePart extends Digits where
  noLeadingZero : first = '0' → rest = []

/-- The sign of an exponent, which may be missing. -/
inductive ExponentSign where
  | none
  | plus
  | minus
  deriving DecidableEq

/-- An exponent with its mark. -/
structure Exponent where
  /-- The mark before the exponent. -/
  mark : Char
  /-- The sign of the exponent. -/
  sign : ExponentSign
  /-- The digits of the exponent. -/
  digits : Digits
  isMark : mark = 'e' ∨ mark = 'E'

/-- A text that the grammar allows for a number. -/
structure NumberText where
  /-- Whether a minus stands before the number. -/
  minus : Bool
  /-- The digits before the point. -/
  whole : WholePart
  /-- The digits after the point, if there is one. -/
  fraction : Option Digits
  /-- The exponent, if there is one. -/
  exponent : Option Exponent

/-- The digits as a text. -/
def Digits.text (ds : Digits) : List Char := ds.first :: ds.rest

/-- The sign as a text. -/
def ExponentSign.text : ExponentSign → List Char
  | none => []
  | plus => ['+']
  | minus => ['-']

/-- A text with a minus before it or without one. -/
def signed (minus : Bool) (cs : List Char) : List Char := if minus then '-' :: cs else cs

namespace NumberText

/-- The point and the digits after it. -/
def fractionText (t : NumberText) : List Char :=
  match t.fraction with
  | none => []
  | some ds => '.' :: ds.text

/-- The number up to the exponent, without its sign. -/
def mantissa (t : NumberText) : List Char := t.whole.text ++ t.fractionText

/-- The exponent with its mark. -/
def exponentText (t : NumberText) : List Char :=
  match t.exponent with
  | none => []
  | some e => e.mark :: (e.sign.text ++ e.digits.text)

/-- The sign of the exponent. -/
def exponentSign (t : NumberText) : ExponentSign := (t.exponent.map Exponent.sign).getD .none

/-- The text of the number. -/
def text (t : NumberText) : String := String.ofList (signed t.minus (t.mantissa ++ t.exponentText))

/-- The text of the number up to the mark of its exponent. -/
def cut (t : NumberText) : String :=
  String.ofList (signed t.minus (t.mantissa ++ t.exponentText.take 1))

end NumberText

/-! ### Reading numbers -/

namespace Read

/-- The text of a number is read as one. -/
theorem document_signed (minus : Bool) {c : Char} (hc : c.isDigit = true) (cs : List Char) :
    document (signed minus (c :: cs)) =
      (number minus >>= fun j => finish >>= fun _ => pure j) (c :: cs) := by
  have hvalue : value greatestDepth (signed minus (c :: cs)) = number minus (c :: cs) := by
    rw [greatestDepth, value]
    cases minus with
    | true => exact valueWith_minus _ _
    | false => exact valueWith_digit _ hc cs
  change Except.bind (value greatestDepth (signed minus (c :: cs))) _ = _
  rw [hvalue]
  rfl

theorem wholeDigits_text (w : WholePart) {c : Char} (hc : c.isDigit = false) (cs : List Char) :
    wholeDigits w.first (w.text ++ c :: cs) = .ok (w.text, c :: cs) :=
  wholeDigits_append w.isDigit w.noLeadingZero fun _ hd => Option.some.inj hd ▸ hc

theorem isDigit_mark {mark : Char} (hmark : mark = 'e' ∨ mark = 'E') : mark.isDigit = false := by
  rcases hmark with rfl | rfl <;> rfl

theorem number_point (negative : Bool) (w : WholePart) (cs : List Char) :
    number negative (w.text ++ '.' :: cs) = fraction negative w.text ('.' :: cs) := by
  have hpeek : peek? (w.text ++ '.' :: cs) = .ok (some w.first, w.text ++ '.' :: cs) := rfl
  rw [number, bind_eq_of_ok hpeek]
  dsimp only
  rw [if_pos (w.isDigit w.first List.mem_cons_self), bind_eq_of_ok (wholeDigits_text w rfl cs)]
  rfl

/-- An exponent needs its digits, after the digits before the point. -/
theorem number_mark (negative : Bool) (w : WholePart) {mark : Char}
    (hmark : mark = 'e' ∨ mark = 'E') :
    number negative (w.text ++ [mark]) = .error ⟨.endInValue, 0⟩ := by
  have hpeek : peek? (w.text ++ [mark]) = .ok (some w.first, w.text ++ [mark]) := rfl
  rw [number, bind_eq_of_ok hpeek]
  dsimp only
  rw [if_pos (w.isDigit w.first List.mem_cons_self),
    bind_eq_of_ok (wholeDigits_text w (isDigit_mark hmark) [])]
  rcases hmark with rfl | rfl <;> rfl

/-- So it does after the digits of a fraction. -/
theorem fraction_mark (negative : Bool) (whole : List Char) (ds : Digits) {mark : Char}
    (hmark : mark = 'e' ∨ mark = 'E') :
    fraction negative whole ('.' :: (ds.text ++ [mark])) = .error ⟨.endInValue, 0⟩ := by
  have hdrop : drop ('.' :: (ds.text ++ [mark])) = .ok ((), ds.text ++ [mark]) := rfl
  have hdigits : takeWhile Char.isDigit (ds.text ++ [mark]) = .ok (ds.text, [mark]) :=
    takeWhile_isDigit ds.isDigit fun _ hd => Option.some.inj hd ▸ isDigit_mark hmark
  rw [fraction, bind_eq_of_ok hdrop, bind_eq_of_ok hdigits]
  rcases hmark with rfl | rfl <;> rfl

end Read

namespace NumberText

variable (t : NumberText)

theorem number_cut (e : Exponent) :
    Read.number t.minus (t.mantissa ++ [e.mark]) = .error ⟨.endInValue, 0⟩ := by
  rw [mantissa, fractionText]
  cases t.fraction with
  | none =>
    rw [List.append_nil]
    exact Read.number_mark t.minus t.whole e.isMark
  | some ds =>
    rw [List.append_assoc, List.cons_append, Read.number_point]
    exact Read.fraction_mark t.minus t.whole.text ds e.isMark

theorem document_append (cs : List Char) :
    Read.document (signed t.minus (t.mantissa ++ cs)) =
      (Read.number t.minus >>= fun j => Read.finish >>= fun _ => pure j) (t.mantissa ++ cs) :=
  Read.document_signed t.minus (t.whole.isDigit t.whole.first List.mem_cons_self) _

/-- **What the text of a number holds is a number.** -/
theorem isNumber_of_parse {j : Json} (h : parse t.text = .ok j) : IsNumber j := by
  have hgives : Read.Gives IsNumber
      (Read.number t.minus >>= fun j => Read.finish >>= fun _ => pure j) :=
    (Read.number_isNumber t.minus).bind fun _ hj => .seq fun _ => .pure hj
  rw [parse, text, String.toList_ofList, document_append] at h
  split at h
  · next j' rest hread =>
    cases h
    exact hgives _ _ _ hread
  · cases h

/-- Only a number with an exponent has a sign of the exponent. -/
theorem exists_exponent_of_minus {t : NumberText} (h : t.exponentSign = .minus) :
    ∃ e, t.exponent = some e ∧ e.sign = .minus := by
  rw [exponentSign] at h
  cases hexponent : t.exponent with
  | none =>
    rw [hexponent] at h
    cases h
  | some e =>
    rw [hexponent] at h
    exact ⟨e, rfl, h⟩

theorem cut_eq {t : NumberText} {e : Exponent} (h : t.exponent = some e) :
    t.cut = String.ofList (signed t.minus (t.mantissa ++ [e.mark])) := by
  rw [cut, exponentText, h]
  rfl

/-- A text that ends with the mark of its exponent is no document. -/
theorem exists_parse_cut_eq_error {t : NumberText} {e : Exponent} (h : t.exponent = some e) :
    ∃ fault, parse t.cut = .error fault := by
  rw [parse, cut_eq h, String.toList_ofList, document_append, bind_eq_of_error (t.number_cut e)]
  exact ⟨_, rfl⟩

end NumberText

end GatewayMapping.Json
