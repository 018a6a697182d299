import GatewayMapping.JsonPath.Reader
import GatewayMapping.Proofs.JsonPath.Printing
import GatewayMapping.Proofs.Reading.Integers
import GatewayMapping.Proofs.Text.Pieces

/-!
# Reading what stands between brackets

Whatever follows the closing bracket, a selector is read from its text and the rest is left. For a
filter this is proved of any reader of filters that reads this one filter.

## Main results

* `Read.quoted_quotedText`: a text in quotes is read back.
* `Read.bracket_names`, `Read.bracket_numbers`, `Read.bracket_filter`: the selectors.
-/

namespace GatewayMapping.JsonPath

open Text (isBlank trimWhere)

namespace Read

variable {limit : Nat} {filter : Read Filter} {cs tail : List Char}

theorem bind_eq_ok_iff {α β : Type} {x : Read α} {f : α → Read β} {left : List Char} {b : β} :
    (x >>= f) cs = .ok (b, left) ↔ ∃ a mid, x cs = .ok (a, mid) ∧ f a mid = .ok (b, left) := by
  change (x cs >>= fun p => f p.1 p.2) = _ ↔ _
  cases hx : x cs with
  | error e => exact ⟨nofun, nofun⟩
  | ok p =>
    constructor
    · exact fun h => ⟨p.1, p.2, rfl, h⟩
    · rintro ⟨a, mid, hp, h⟩
      obtain rfl := Except.ok.inj hp
      exact h

theorem char_cons (c : Char) (cs : List Char) : char c (c :: cs) = .ok ((), cs) := by
  rw [char, bind_eq_of_ok (show peek? (c :: cs) = .ok (some c, c :: cs) from rfl), if_pos rfl]
  rfl

theorem sign_append (s cs : List Char) : sign s (s ++ cs) = .ok (true, cs) := by
  have hpre : s.isPrefixOf (s ++ cs) = true :=
    List.isPrefixOf_iff_prefix.mpr (List.prefix_append s cs)
  have hsign : sign s (s ++ cs) = .ok (true, (s ++ cs).drop s.length) := by
    change (if s.isPrefixOf (s ++ cs) = true then _ else _ : Read Bool) (s ++ cs) = _
    rw [if_pos hpre]
    rfl
  rw [hsign, List.drop_left]

theorem sign_false {s : List Char} (h : ¬s <+: cs) : sign s cs = .ok (false, cs) := by
  change (if s.isPrefixOf cs = true then _ else _ : Read Bool) cs = _
  rw [if_neg (mt List.isPrefixOf_iff_prefix.mp h)]
  rfl

/-! ### Quotes -/

theorem quotedContent?_of_ne {quote c : Char} (hslash : c ≠ '\\') (hquote : c ≠ quote)
    (cs : List Char) :
    quotedContent? quote (c :: cs) =
      (quotedContent? quote cs).map fun (content, rest) => (c :: content, rest) := by
  rw [quotedContent?.eq_def]
  dsimp only
  rw [if_neg hslash, if_neg hquote]

theorem quotedContent?_escaped (tail : List Char) :
    (cs : List Char) → quotedContent? '\'' (escaped cs ++ '\'' :: tail) = some (cs, tail)
  | [] => by
    rw [escaped, List.nil_append, quotedContent?.eq_def]
    rfl
  | c :: cs => by
      have ih := quotedContent?_escaped tail cs
      rw [escaped]
      split
      · rw [List.cons_append, List.cons_append, quotedContent?.eq_def]
        dsimp only
        rw [if_pos rfl, ih]
        rfl
      · next hc =>
        obtain ⟨hslash, hquote⟩ := not_or.mp hc
        rw [List.cons_append, quotedContent?_of_ne hslash hquote, ih]
        rfl

theorem quoted_quotedText (s : String) (tail : List Char) :
    quoted '\'' (quotedText s ++ tail) = .ok (s, tail) := by
  have hcontent := quotedContent?_escaped tail s.toList
  rw [quoted, quotedText, List.cons_append, List.append_assoc, List.tail_cons, List.cons_append,
    List.nil_append, hcontent]
  exact congrArg (fun s => Except.ok (s, tail)) String.ofList_toList

/-- Names after commas. -/
def moreNamesText (names : List String) : List Char :=
  names.flatMap fun name => ',' :: quotedText name

theorem namesText_cons (name : String) (names : List String) :
    namesText (name :: names) = quotedText name ++ moreNamesText names := by
  induction names generalizing name with
  | nil => simp [namesText, moreNamesText]
  | cons next names ih =>
    rw [namesText, List.map_cons, List.map_cons, List.intercalate_cons_cons, ← List.map_cons,
      ← namesText, ih]
    simp [moreNamesText]

/-- Further names are read up to the closing bracket. -/
theorem moreNames_text (tail : List Char) : (names : List String) → (limit : Nat) →
    names.length ≤ limit →
      moreNames limit (moreNamesText names ++ ']' :: tail) = .ok (names, ']' :: tail)
  | [], 0, _ => rfl
  | [], _ + 1, _ => rfl
  | name :: names, limit + 1, h => by
      have hmore := moreNames_text tail names limit (Nat.le_of_succ_le_succ h)
      have hquoted := quoted_quotedText name (moreNamesText names ++ ']' :: tail)
      rw [moreNamesText, List.flatMap_cons, List.cons_append, List.cons_append, ← moreNamesText,
        List.append_assoc]
      change (do
        let name ← quoted '\''
        return name :: (← moreNames limit)) (quotedText name ++ _) = _
      rw [bind_eq_of_ok hquoted, bind_eq_of_ok hmore]
      rfl

/-- Reads the bracket that closes a selector. -/
def closing (selector : Selector) : Read Selector := do
  skipBlanks
  char ']'
  return selector

/-- The names of a step, one or several. -/
theorem bracket_names (name : String) {names : List String} (h : names.length ≤ limit)
    (tail : List Char) :
    bracket limit filter (quotedText name ++ (moreNamesText names ++ ']' :: tail)) =
      .ok (if names.isEmpty then .name name else .names (name :: names), tail) := by
  have hquoted := quoted_quotedText name (moreNamesText names ++ ']' :: tail)
  have hmore := moreNames_text tail names limit h
  have hskip : skipBlanks (quotedText name ++ (moreNamesText names ++ ']' :: tail)) =
      .ok ((), quotedText name ++ (moreNamesText names ++ ']' :: tail)) := rfl
  have hpeek : peek? (quotedText name ++ (moreNamesText names ++ ']' :: tail)) =
      .ok (some '\'', quotedText name ++ (moreNamesText names ++ ']' :: tail)) := rfl
  rw [bracket, bind_eq_of_ok hskip, bind_eq_of_ok hpeek]
  change (quoted '\'' >>= _) (quotedText name ++ _) = _
  rw [bind_eq_of_ok hquoted, bind_eq_of_ok hmore]
  cases names <;> rfl

/-! ### Filters -/

/-- A filter is read by the reader of filters, which may pass over blanks after it. -/
theorem bracket_filter {f : Filter} {left : List Char} (h : filter cs = .ok (f, left))
    (hleft : left.dropWhile isBlank = ')' :: ']' :: tail) :
    bracket limit filter ('?' :: '(' :: cs) = .ok (.filter f, tail) := by
  have hskip : skipBlanks left = .ok ((), ')' :: ']' :: tail) := by rw [skipBlanks, hleft]
  change (do
    let f ← filter
    skipBlanks
    char ')'
    closing (.filter f)) cs = _
  rw [bind_eq_of_ok h, bind_eq_of_ok hskip]
  rfl

/-! ### Numbers -/

/-- The characters of indexes and slices. -/
def IsNumbersChar (c : Char) : Prop := c.isDigit = true ∨ c ∈ ['-', ':', ',']

theorem IsNumbersChar.ne {c d : Char} (h : IsNumbersChar c) (hd : d.isDigit = false)
    (hmem : d ∉ ['-', ':', ',']) : c ≠ d := by
  rintro rfl
  rcases h with hdigit | hsign
  · rw [hd] at hdigit
    cases hdigit
  · exact hmem hsign

theorem not_blank_of_isDigit {c : Char} (h : c.isDigit = true) : isBlank c = false := by
  have hrange : 48 ≤ c.toNat ∧ c.toNat ≤ 57 := by
    rw [Char.isDigit, Bool.and_eq_true, decide_eq_true_eq, decide_eq_true_eq] at h
    exact h
  simp only [isBlank, Text.blankRanges, List.any_cons, List.any_nil, Bool.or_eq_false_iff,
    Bool.and_eq_false_iff, decide_eq_false_iff_not, and_true]
  omega

theorem IsNumbersChar.not_blank {c : Char} (h : IsNumbersChar c) : isBlank c = false := by
  rcases h with hdigit | hsign
  · exact not_blank_of_isDigit hdigit
  · simp only [List.mem_cons, List.not_mem_nil, or_false] at hsign
    rcases hsign with rfl | rfl | rfl <;> rfl

theorem bracket_content {c : Char} (hc : IsNumbersChar c) (cs : List Char) :
    bracket limit filter (c :: cs) = (do
      let content ← takeWhile (· ≠ ']')
      closing (← numbers (trimWhere isBlank content))) (c :: cs) := by
  have hquote : ¬isQuote c = true := by
    simp only [isQuote, Bool.or_eq_true, decide_eq_true_eq]
    exact not_or.mpr ⟨hc.ne rfl (by decide), hc.ne rfl (by decide)⟩
  have hskip : skipBlanks (c :: cs) = .ok ((), c :: cs) := by
    rw [skipBlanks, List.dropWhile_cons_of_neg (by rw [hc.not_blank]; nofun)]
  rw [bracket, bind_eq_of_ok hskip, bind_eq_of_ok (show peek? (c :: cs) = .ok (some c, _) from rfl)]
  refine congrFun ?_ (c :: cs)
  dsimp only
  split <;> rename_i heq <;> cases heq
  · exact absurd rfl (hc.ne (d := '*') rfl (by decide))
  · exact absurd rfl (hc.ne (d := '?') rfl (by decide))
  · rw [if_neg hquote]
    rfl

/-- Numbers are read from their text, up to the closing bracket. -/
theorem bracket_numbers {content : List Char} {selector : Selector} (hne : content ≠ [])
    (hcontent : ∀ c ∈ content, IsNumbersChar c)
    (h : ∀ left, numbers content left = .ok (selector, left)) (tail : List Char) :
    bracket limit filter (content ++ ']' :: tail) = .ok (selector, tail) := by
  obtain ⟨c, rest, rfl⟩ := List.exists_cons_of_ne_nil hne
  have hstop (d : Char) (hd : d ∈ c :: rest) : decide (d ≠ ']') = true :=
    decide_eq_true ((hcontent d hd).ne rfl (by decide))
  have htake : takeWhile (· ≠ ']') (c :: rest ++ ']' :: tail) = .ok (c :: rest, ']' :: tail) := by
    rw [takeWhile, List.takeWhile_append_of_pos hstop, List.dropWhile_append_of_pos hstop]
    exact congrArg (fun taken => Except.ok (taken, ']' :: tail)) (List.append_nil (c :: rest))
  have htrim : trimWhere isBlank (c :: rest) = c :: rest :=
    Text.trimWhere_eq_self_of_forall fun d hd => (hcontent d hd).not_blank
  rw [List.cons_append] at htake ⊢
  rw [bracket_content (hcontent c List.mem_cons_self), bind_eq_of_ok htake, htrim,
    bind_eq_of_ok (h _)]
  rfl

/-! ### Indexes and slices -/

theorem isNumbersChar_of_mem_integerText {i : Int64} {c : Char} (h : c ∈ integerText i) :
    IsNumbersChar c :=
  (isDigit_or_minus_of_mem_toString h).imp_right fun hminus => by rw [hminus]; decide

theorem not_mem_integerText {i : Int64} {c : Char} (hc : c.isDigit = false) (hminus : c ≠ '-') :
    c ∉ integerText i := by
  intro h
  rcases isDigit_or_minus_of_mem_toString h with hdigit | rfl
  · rw [hc] at hdigit
    cases hdigit
  · exact hminus rfl

theorem integerText_ne_nil (i : Int64) : integerText i ≠ [] := by
  rw [integerText, toList_toString_int]
  split
  · exact List.cons_ne_nil _ _
  · exact Nat.toDigits_ne_nil

/-- An index is read from its decimal text. -/
theorem integer?_integerText (i : Int64) (left : List Char) :
    integer? (integerText i) left = .ok (some i, left) := by
  have htrim : trimWhere isBlank (integerText i) = integerText i :=
    Text.trimWhere_eq_self_of_forall fun c hc => (isNumbersChar_of_mem_integerText hc).not_blank
  have hempty : ¬(integerText i).isEmpty = true := mt List.isEmpty_iff.mp (integerText_ne_nil i)
  have hvalue : (Text.wholeNumber? (integerText i)).bind int64? = some i := by
    rw [integerText, Text.wholeNumber?_toString, Option.bind_some, int64?_toInt]
  unfold integer?
  simp only [htrim, if_neg hempty, hvalue]
  rfl

theorem integer_integerText (i : Int64) (left : List Char) :
    integer (integerText i) left = .ok (i, left) := by
  rw [integer, bind_eq_of_ok (integer?_integerText i left)]
  rfl

theorem integer?_boundText (bound : Option Int64) (left : List Char) :
    integer? (boundText bound) left = .ok (bound, left) := by
  cases bound with
  | none => rfl
  | some i => exact integer?_integerText i left

theorem not_mem_boundText (bound : Option Int64) : ':' ∉ boundText bound := by
  cases bound with
  | none => exact List.not_mem_nil
  | some i => exact not_mem_integerText rfl (by decide)

theorem isNumbersChar_of_mem_boundText {bound : Option Int64} {c : Char}
    (h : c ∈ boundText bound) : IsNumbersChar c := by
  cases bound with
  | none => cases h
  | some i => exact isNumbersChar_of_mem_integerText h

/-- A slice with its bounds, either of which may be missing. -/
theorem bracket_slice (first last : Option Int64) (tail : List Char) :
    bracket limit filter (boundText first ++ ':' :: boundText last ++ ']' :: tail) =
      .ok (.slice first last, tail) := by
  refine bracket_numbers (by simp) (fun c hc => ?_) (fun left => ?_) tail
  · rcases List.mem_append.mp hc with hfirst | hrest
    · exact isNumbersChar_of_mem_boundText hfirst
    · rcases List.mem_cons.mp hrest with rfl | hlast
      · exact .inr (by decide)
      · exact isNumbersChar_of_mem_boundText hlast
  · unfold numbers
    rw [Text.cutAt?_append_cons (not_mem_boundText first)]
    dsimp only
    rw [bind_eq_of_ok (integer?_boundText first left), bind_eq_of_ok (integer?_boundText last left)]
    rfl

theorem mapM_integerText (is : List Int64) (left : List Char) :
    (is.map integerText).mapM integer left = .ok (is, left) := by
  induction is with
  | nil => rfl
  | cons i is ih =>
    rw [List.map_cons, List.mapM_cons, bind_eq_of_ok (integer_integerText i left),
      bind_eq_of_ok ih]
    rfl

/-- The indexes of a step, one or several. -/
theorem bracket_indexes (i : Int64) (is : List Int64) (tail : List Char) :
    bracket limit filter ([','].intercalate ((i :: is).map integerText) ++ ']' :: tail) =
      .ok (if is.isEmpty then .index i else .indexes (i :: is), tail) := by
  have hcomma : ∀ piece ∈ (i :: is).map integerText, ',' ∉ piece := by
    intro piece hpiece
    obtain ⟨j, -, rfl⟩ := List.mem_map.mp hpiece
    exact not_mem_integerText rfl (by decide)
  have hchars (c : Char) (hc : c ∈ [','].intercalate ((i :: is).map integerText)) :
      IsNumbersChar c ∧ c ≠ ':' := by
    rcases Text.mem_join hc with rfl | ⟨piece, hpiece, hc⟩
    · exact ⟨.inr (by decide), by decide⟩
    · obtain ⟨j, -, rfl⟩ := List.mem_map.mp hpiece
      refine ⟨isNumbersChar_of_mem_integerText hc, ?_⟩
      rintro rfl
      exact not_mem_integerText rfl (by decide) hc
  have hsplit : Text.splitAt ',' ([','].intercalate ((i :: is).map integerText)) =
      (i :: is).map integerText :=
    Text.splitAt_join (List.cons_ne_nil _ _) hcomma
  refine bracket_numbers (fun hnil => ?_) (fun c hc => (hchars c hc).1) (fun left => ?_) tail
  · rw [hnil] at hsplit
    have hi : [] = integerText i := (List.cons.inj hsplit).1
    exact integerText_ne_nil i hi.symm
  · unfold numbers
    rw [Text.cutAt?_eq_none fun h => (hchars ':' h).2 rfl]
    dsimp only
    rw [hsplit, bind_eq_of_ok (mapM_integerText (i :: is) left)]
    cases is <;> rfl

end Read
end GatewayMapping.JsonPath
