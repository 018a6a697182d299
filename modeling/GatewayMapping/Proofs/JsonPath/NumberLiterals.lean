import GatewayMapping.Proofs.Json.NumberTexts
import GatewayMapping.Proofs.JsonPath.FilterLogic
import GatewayMapping.Proofs.JsonPath.NumberFilters
import GatewayMapping.Proofs.Value.Bisimilarity

/-!
# Numbers in filters

A filter takes the characters of a number first and reads them as a document then. The characters
that it takes are those of every text of a number but for the minus of an exponent. So a number is
read as a constant, which equals the number in a document, unless its exponent has a minus: then
the text is cut at the mark of the exponent, and what is left of it is no number.

## Main results

* `parse_equalsText_of_minus`: a number with a minus in its exponent is not read.
* `find_number`: one without a minus there selects itself.
-/

namespace GatewayMapping.JsonPath

open Json (Digits ExponentSign NumberText signed)
open Read

/-! ### The characters of numbers -/

theorem isNumberChar_of_isDigit {c : Char} (hc : c.isDigit = true) : isNumberChar c = true := by
  rw [isNumberChar, hc]
  rfl

theorem isNumberChar_digits (ds : Digits) : ∀ c ∈ ds.text, isNumberChar c = true :=
  fun c hc => isNumberChar_of_isDigit (ds.isDigit c hc)

variable (t : NumberText) {tail : List Char}

theorem isNumberChar_mantissa : ∀ c ∈ t.mantissa, isNumberChar c = true := by
  have hfraction : ∀ c ∈ t.fractionText, isNumberChar c = true := by
    rw [NumberText.fractionText]
    cases t.fraction with
    | none => exact List.forall_mem_nil _
    | some ds => exact List.forall_mem_cons.mpr ⟨rfl, isNumberChar_digits ds⟩
  exact List.forall_mem_append.mpr ⟨isNumberChar_digits t.whole.toDigits, hfraction⟩

theorem isNumberChar_mark (e : Json.Exponent) : isNumberChar e.mark = true := by
  rcases e.isMark with h | h <;> rw [h] <;> rfl

theorem isNumberChar_exponentText (h : t.exponentSign ≠ .minus) :
    ∀ c ∈ t.exponentText, isNumberChar c = true := by
  rw [NumberText.exponentText]
  rw [NumberText.exponentSign] at h
  cases hexponent : t.exponent with
  | none => exact List.forall_mem_nil _
  | some e =>
    rw [hexponent, Option.map_some, Option.getD_some] at h
    have hsign : ∀ c ∈ e.sign.text, isNumberChar c = true := by
      cases hs : e.sign with
      | none => exact List.forall_mem_nil _
      | plus => exact List.forall_mem_singleton.mpr rfl
      | minus => exact absurd hs h
    exact List.forall_mem_cons.mpr ⟨isNumberChar_mark e,
      List.forall_mem_append.mpr ⟨hsign, isNumberChar_digits e.digits⟩⟩

/-- A number begins with a digit after its sign. -/
theorem head?_mantissa_append (cs : List Char) : (t.mantissa ++ cs).head? ≠ some '-' := by
  have hdigit := t.whole.isDigit t.whole.first List.mem_cons_self
  intro h
  obtain hfirst : t.whole.first = '-' := Option.some.inj h
  rw [hfirst] at hdigit
  cases hdigit

/-- A number is taken up to the end of the operand if no minus stands in its exponent. -/
theorem number_text (h : t.exponentSign ≠ .minus) (htail : EndsOperand tail) :
    number (t.text.toList ++ tail) = literal t.text tail := by
  have hchars : ∀ c ∈ t.mantissa ++ t.exponentText, isNumberChar c = true :=
    List.forall_mem_append.mpr ⟨isNumberChar_mantissa t, isNumberChar_exponentText t h⟩
  rw [NumberText.text, String.toList_ofList]
  refine number_append t.minus hchars htail.not_isNumberChar ?_
  rw [List.append_assoc]
  exact head?_mantissa_append t _

/-- A number with a minus in its exponent is taken up to the minus. -/
theorem number_text_of_minus (h : t.exponentSign = .minus) (tail : List Char) :
    ∃ rest, t.text.toList ++ tail = t.cut.toList ++ rest ∧
      number (t.text.toList ++ tail) = literal t.cut rest := by
  obtain ⟨e, hexponent, hsign⟩ := NumberText.exists_exponent_of_minus h
  have htext : t.exponentText = e.mark :: '-' :: e.digits.text := by
    rw [NumberText.exponentText, hexponent]
    dsimp only
    rw [hsign]
    rfl
  have hchars : ∀ c ∈ t.mantissa ++ [e.mark], isNumberChar c = true :=
    List.forall_mem_append.mpr
      ⟨isNumberChar_mantissa t, List.forall_mem_singleton.mpr (isNumberChar_mark e)⟩
  have hrest : t.text.toList ++ tail = t.cut.toList ++ '-' :: (e.digits.text ++ tail) := by
    rw [NumberText.text, NumberText.cut_eq hexponent, String.toList_ofList, String.toList_ofList,
      htext, signed, signed]
    cases t.minus <;> simp
  refine ⟨_, hrest, ?_⟩
  rw [hrest, NumberText.cut_eq hexponent, String.toList_ofList]
  refine number_append t.minus hchars (fun c hc => Option.some.inj hc ▸ rfl) ?_
  rw [List.append_assoc]
  exact head?_mantissa_append t _

/-! ### Comparisons with numbers -/

/-- The condition that an item equals what stands after the sign. -/
def equals (o : Operand) : Filter := .compare (.path false (.ofSteps [] none)) .eq o

/-- The text of the condition that an item equals a number. -/
def equalsText (t : NumberText) : String := "@ == " ++ t.text

/-- The path to the items that equal a number. -/
theorem filterText_equalsText : filterText (equalsText t) = "$[?(@ == " ++ t.text ++ ")]" := by
  apply String.toList_inj.mp
  simp [filterText, equalsText]

theorem toList_equalsText :
    (equalsText t).toList = '@' :: ' ' :: '=' :: '=' :: ' ' :: t.text.toList := by
  simp [equalsText]

/-- An operand that begins as a number is one. -/
theorem operand_text {filter : Read Filter} {size : Nat} {bs : List Char} (hbs : Blanks bs) :
    operand filter size (bs ++ (t.text.toList ++ tail)) = number (t.text.toList ++ tail) := by
  rw [NumberText.text, String.toList_ofList, signed]
  cases t.minus with
  | true => exact operand_minus hbs _
  | false => exact operand_digit hbs (t.whole.isDigit t.whole.first List.mem_cons_self) _

/-- A condition that begins with the item and the sign of equality goes on with the operand. -/
theorem negations_equalsText {l limit : Nat} {bs : List Char} (hbs : Blanks bs) :
    negations (filterUpTo l) (l + 1) (limit + 1) (bs ++ ((equalsText t).toList ++ tail)) =
      (number >>= fun o => pure (equals o)) (t.text.toList ++ tail) := by
  obtain ⟨cs, hcs⟩ : ∃ cs, t.text.toList ++ tail = cs := ⟨_, rfl⟩
  have hitem : operand (filterUpTo l) (l + 1) ('@' :: ' ' :: '=' :: '=' :: ' ' :: cs) =
      .ok (.path false (.ofSteps [] none), ' ' :: '=' :: '=' :: ' ' :: cs) := rfl
  have hskip : skipBlanks (' ' :: '=' :: '=' :: ' ' :: cs) =
      .ok ((), '=' :: '=' :: ' ' :: cs) := rfl
  have hsign : comparison? comparisons ('=' :: '=' :: ' ' :: cs) =
      .ok (some (some .eq), ' ' :: cs) := comparison?_sign .eq cs
  have hnumber : operand (filterUpTo l) (l + 1) (' ' :: cs) = number cs := by
    have hblank : Blanks [' '] := List.forall_mem_singleton.mpr rfl
    rw [← hcs]
    exact operand_text t hblank
  rw [toList_equalsText, List.cons_append, negations_comparison hbs rfl (by decide) (by decide),
    Read.comparison]
  simp only [List.cons_append, hcs]
  rw [bind_eq_of_ok hitem, bind_eq_of_ok hskip, bind_eq_of_ok hsign]
  change Except.bind (operand (filterUpTo l) (l + 1) (' ' :: cs)) _ = _
  rw [hnumber]
  rfl

/-- A number equals itself. -/
theorem holds_eq_self {j : Json} (h : j.IsNumber) : CompareOp.eq.holds j j = true := by
  obtain ⟨x, hx, hnan⟩ := h.exists_number?
  have hequal := float_beq_self hnan
  have horder : order? j j = some .eq := by
    have hstring : ∀ s, j ≠ .string s := by cases h <;> exact nofun
    rw [order?]
    · simp only [hx]
      rw [if_neg (not_float_lt_of_beq hequal), if_pos hequal]
    · exact fun s _ hs => absurd hs (hstring s)
  rw [CompareOp.holds.eq_def, horder]
  rfl

/-! ### Paths -/

variable {t : NumberText}

theorem readsAsFilter_equalsText {j : Json} (h : t.exponentSign ≠ .minus)
    (hj : Json.parse t.text = .ok j) : ReadsAsFilter (equalsText t) (equals (.literal j)) := by
  obtain ⟨x, hx, -⟩ := (t.isNumber_of_parse hj).exists_number?
  have hnumber : j.number?.isSome = true := by
    rw [hx]
    rfl
  have hread : number (t.text.toList ++ [')', ']']) = .ok (.literal j, [')', ']']) := by
    rw [number_text t h ⟨')', [']'], rfl, .inr rfl⟩]
    exact literal_of_parse hj hnumber _
  refine ReadsBefore.readsAsFilter rfl rfl
    (ReadsBefore.of_tightest (fun bs hbs => ?_) .close (Nat.zero_le 2))
  exact ⟨_, (negations_equalsText t hbs).trans (bind_eq_of_ok hread _), rfl⟩

/-- What fails at a level fails at the looser one. -/
theorem levelReader_eq_error (c : Connective) {l : Nat} {cs : List Char} {fault : Fault}
    (h : levelReader l (c.level + 1) cs = .error fault) :
    levelReader l c.level cs = .error fault := by
  rw [levelReader_level]
  exact bind_eq_of_error h _

/-- A path that compares items with a number whose exponent has a minus is not read: the text of the
number is cut at the mark of the exponent. -/
theorem parse_equalsText_of_minus (h : t.exponentSign = .minus) :
    parse (filterText (equalsText t)) = .error (.invalid (filterText (equalsText t))
      (.badNumber t.cut) (9 + t.cut.toList.length)) := by
  obtain ⟨rest, hrest, hnumber⟩ := number_text_of_minus t h [')', ']']
  obtain ⟨e, hexponent, -⟩ := NumberText.exists_exponent_of_minus h
  obtain ⟨fault, hfault⟩ := NumberText.exists_parse_cut_eq_error hexponent
  rw [literal_of_error hfault] at hnumber
  have hlength : (filterRest (equalsText t)).length = (equalsText t).toList.length + 4 + 1 :=
    length_filterRest _
  have hread : filterUpTo (filterRest (equalsText t)).length
      ((equalsText t).toList ++ [')', ']']) = .error ⟨.badNumber t.cut, rest.length⟩ := by
    rw [hlength]
    have hblanks : Blanks [] := List.forall_mem_nil _
    refine levelReader_eq_error .or (levelReader_eq_error .and ?_)
    exact (negations_equalsText t hblanks).trans (bind_eq_of_error hnumber _)
  have hplace : (filterRest (equalsText t)).length + 1 - rest.length =
      9 + t.cut.toList.length := by
    have hsplit := congrArg List.length hrest
    simp only [List.length_append, List.length_cons, List.length_nil] at hsplit
    rw [hlength, toList_equalsText]
    simp only [List.length_cons]
    omega
  rw [parse_filterText_eq_error hread, hplace]

/-- **Numbers in filters are the numbers of documents** where no minus stands in the exponent: a
number that can be read selects itself from an array. With a minus there, the path is not read. -/
theorem find_number (t : NumberText) {j : Json} (hj : Json.parse t.text = .ok j) :
    (t.exponentSign ≠ .minus →
      find (.array [j]) ("$[?(@ == " ++ t.text ++ ")]") = .ok (.array [j])) ∧
    (t.exponentSign = .minus →
      parse ("$[?(@ == " ++ t.text ++ ")]") = .error (.invalid ("$[?(@ == " ++ t.text ++ ")]")
        (.badNumber t.cut) (9 + t.cut.toList.length))) := by
  rw [← filterText_equalsText]
  refine ⟨fun h => ?_, parse_equalsText_of_minus⟩
  have hholds : (equals (.literal j)).holds (.array [j]) j = true := by
    rw [equals, holds_compare]
    exact holds_eq_self (t.isNumber_of_parse hj)
  have hparse := readsAsFilter_iff.mp (readsAsFilter_equalsText h hj)
  rw [find, hparse]
  change (filterPath (filterText (equalsText t)) false (equals (.literal j))).evaluate _ = _
  rw [evaluate_filterPath, nodes_filter_array, List.filter_cons_of_pos hholds, List.filter_nil]

/-- A number with every part that the grammar has. -/
theorem find_number_signed :
    let t : NumberText :=
      { minus := true
        whole := ⟨⟨'1', ['2'], List.all_eq_true.mp rfl⟩, nofun⟩
        fraction := some ⟨'5', [], List.all_eq_true.mp rfl⟩
        exponent := some ⟨'E', .plus, ⟨'2', [], List.all_eq_true.mp rfl⟩, .inr rfl⟩ }
    ∃ j, Json.parse t.text = .ok j ∧
      find (.array [j]) "$[?(@ == -12.5E+2)]" = .ok (.array [j]) := by
  intro t
  have hok : (Json.parse t.text).isOk = true := by decide +kernel
  have hpath : "$[?(@ == " ++ t.text ++ ")]" = "$[?(@ == -12.5E+2)]" := by decide +kernel
  cases hj : Json.parse t.text with
  | error e =>
    rw [hj] at hok
    cases hok
  | ok j => exact ⟨j, rfl, hpath ▸ (find_number t hj).1 (by decide)⟩

/-- A document holds the number `1e-5`, and no path compares with it. -/
theorem exists_number_without_filter :
    ∃ (t : NumberText) (j : Json), t.text = "1e-5" ∧ Json.parse t.text = .ok j ∧
      ∀ p, parse ("$[?(@ == " ++ t.text ++ ")]") ≠ .ok p := by
  let t : NumberText :=
    { minus := false
      whole := ⟨⟨'1', [], List.all_eq_true.mp rfl⟩, nofun⟩
      fraction := none
      exponent := some ⟨'e', .minus, ⟨'5', [], List.all_eq_true.mp rfl⟩, .inl rfl⟩ }
  have hok : (Json.parse t.text).isOk = true := by decide +kernel
  cases hj : Json.parse t.text with
  | error e =>
    rw [hj] at hok
    cases hok
  | ok j =>
    refine ⟨t, j, by decide +kernel, hj, fun p hp => ?_⟩
    rw [← filterText_equalsText, parse_equalsText_of_minus rfl] at hp
    cases hp

end GatewayMapping.JsonPath
