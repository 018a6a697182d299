import GatewayMapping.Json.Printer
import GatewayMapping.Proofs.OrderedMap
import GatewayMapping.Proofs.Reading.Integers

/-!
# Documents are read back from their compact texts

A *plain* document has no doubles, no number beyond 64 bits and no key twice in an object, and it
is no deeper than a reader goes. Its compact text is read as the document itself. The text of a
part ends where the part does, whatever follows it: only a number has to be followed by something
else than its continuation, and in arrays and objects a comma or a bracket is.

The induction is on the depth that is left. Items and members are read by a reader of which only
this is used: it reads the texts of the parts back.

## Main definitions

* `Json.IsPlain`: the documents that are written and read faithfully.
* `Json.ReadsBack`: a reader reads a document from its text, wherever the text stands.

## Main results

* `Json.parse_compact`: the compact text of a plain document is read as the document.
-/

namespace GatewayMapping.Json

open Read

/-- Doubles do not occur, 64 bits hold the numbers, no object has a key twice, and at most `depth`
arrays and objects lie inside one another. -/
inductive IsPlain : (depth : Nat) → Json → Prop
  | null {depth} : IsPlain depth .null
  | bool {depth} (b : Bool) : IsPlain depth (.bool b)
  | int {depth n} (hmin : -2 ^ 63 ≤ n) (hmax : n < 2 ^ 64) : IsPlain depth (.int n)
  | string {depth} (s : String) : IsPlain depth (.string s)
  | array {depth items} (h : ∀ j ∈ items, IsPlain depth j) : IsPlain (depth + 1) (.array items)
  | object {depth} {fields : Fields Json} (hkeys : fields.keys.Nodup)
      (h : ∀ f ∈ fields, IsPlain depth f.2) : IsPlain (depth + 1) (.object fields)

theorem drop_cons (c : Char) (cs : List Char) : Read.drop (c :: cs) = .ok ((), cs) := rfl

/-! ### Strings -/

theorem hexValue?_smallHexDigit {n : Nat} (h : n < 16) : hexValue? (smallHexDigit n) = some n := by
  revert n
  decide

/-- A control character is read from its number. -/
theorem escape_control {c : Char} (h : c.toNat < 0x20) (cs : List Char) :
    escape ('u' :: '0' :: '0' :: smallHexDigit (c.toNat / 16) :: smallHexDigit (c.toNat % 16) ::
      cs) = .ok (c, cs) := by
  have hunit : hexUnit ('0' :: '0' :: smallHexDigit (c.toNat / 16) ::
      smallHexDigit (c.toNat % 16) :: cs) = .ok (c.toNat, cs) := by
    have hvalue : ((0 * 16 + 0) * 16 + c.toNat / 16) * 16 + c.toNat % 16 = c.toNat := by omega
    rw [hexUnit, hexValue?_smallHexDigit (by omega), hexValue?_smallHexDigit (by omega)]
    exact congrArg (fun n => Except.ok (n, cs)) hvalue
  have hlow : ¬(0xDC00 ≤ c.toNat && c.toNat ≤ 0xDFFF) = true := by simp; omega
  have hhigh : ¬(0xD800 ≤ c.toNat && c.toNat ≤ 0xDBFF) = true := by simp; omega
  simp only [escape, hunit, bind, Except.bind, if_neg hlow, if_neg hhigh, Char.ofNat_toNat]
  rfl

/-- Inside a string the text stands for the character: it is an escape for it, or the character as
it is where it may stand in a string. -/
def StandsFor (cs : List Char) (c : Char) : Prop :=
  (∃ e, cs = '\\' :: e ∧ ∀ rest, escape (e ++ rest) = .ok (c, rest)) ∨
    (cs = [c] ∧ c ≠ '"' ∧ c ≠ '\\' ∧ ¬c.toNat < 0x20)

theorem standsFor_escapeChar (c : Char) : StandsFor (escapeChar c) c := by
  unfold escapeChar
  split_ifs with hquoted hback hfeed hline hreturn htab hcontrol
  · refine .inl ⟨[c], rfl, fun cs => ?_⟩
    rw [Bool.or_eq_true, decide_eq_true_eq, decide_eq_true_eq] at hquoted
    obtain rfl | rfl := hquoted
    · rfl
    · rfl
  · exact .inl ⟨['b'], rfl, fun cs => hback ▸ rfl⟩
  · exact .inl ⟨['f'], rfl, fun cs => hfeed ▸ rfl⟩
  · exact .inl ⟨['n'], rfl, fun cs => hline ▸ rfl⟩
  · exact .inl ⟨['r'], rfl, fun cs => hreturn ▸ rfl⟩
  · exact .inl ⟨['t'], rfl, fun cs => htab ▸ rfl⟩
  · exact .inl ⟨_, rfl, escape_control hcontrol⟩
  · rw [Bool.or_eq_true, decide_eq_true_eq, decide_eq_true_eq, not_or] at hquoted
    exact .inr ⟨rfl, hquoted.1, hquoted.2, hcontrol⟩

section

variable {write : Char → List Char} {s : List Char}

/-- The inside of a string is read from texts that stand for its characters. -/
theorem stringBody_flatMap (h : ∀ c ∈ s, StandsFor (write c) c) (rest : List Char) :
    stringBody (s.flatMap write ++ '"' :: rest) = .ok (s, rest) := by
  induction s with
  | nil => rw [List.flatMap_nil, List.nil_append, stringBody]
  | cons c s ih =>
    obtain ⟨hc, hs⟩ := List.forall_mem_cons.mp h
    rw [List.flatMap_cons, List.append_assoc]
    obtain ⟨e, he, hescape⟩ | ⟨hself, hquote, hslash, hcontrol⟩ := hc
    · rw [he, List.cons_append, stringBody]
      split
      · rename_i heq
        rw [hescape] at heq
        cases heq
      · rename_i heq
        rw [hescape] at heq
        cases heq
        rw [ih hs]
        rfl
    · rw [hself, List.singleton_append, stringBody, if_neg hcontrol, ih hs]
      · rfl
      · exact hquote
      · exact hslash

/-- A string is read from such texts in quotes. -/
theorem string_flatMap (h : ∀ c ∈ s, StandsFor (write c) c) (rest : List Char) :
    Read.string ('"' :: (s.flatMap write ++ '"' :: rest)) = .ok (String.ofList s, rest) := by
  rw [Read.string]
  refine (bind_eq_of_ok (drop_cons '"' _) _).trans ?_
  exact (bind_eq_of_ok (stringBody_flatMap h rest) _).trans rfl

end

theorem toList_quote (s : String) :
    (quote s).toList = '"' :: (s.toList.flatMap escapeChar ++ ['"']) := by
  simp [quote]

/-- A string is read from its text in quotes. -/
theorem string_quote (s : String) (cs : List Char) :
    Read.string ((quote s).toList ++ cs) = .ok (s, cs) := by
  have hstring := string_flatMap (s := s.toList) (fun c _ => standsFor_escapeChar c) cs
  rw [String.ofList_toList] at hstring
  rw [toList_quote, List.cons_append, List.append_assoc, List.singleton_append]
  exact hstring

/-! ### Parts with commas between them -/

theorem next?_of_not_space {c : Char} (hc : isSpace c = false) (cs : List Char) :
    next? (c :: cs) = .ok (some c, c :: cs) := by
  change peek? ((c :: cs).dropWhile isSpace) = _
  rw [List.dropWhile_cons_of_neg (Bool.eq_false_iff.mp hc)]
  rfl

/-- The texts of the parts after the first one. -/
def moreParts {α : Type} (text : α → List Char) (parts : List α) : List Char :=
  parts.flatMap fun part => ',' :: text part

section

variable {α : Type} (text : α → List Char)

theorem moreParts_cons_append (part : α) (parts : List α) (rest : List Char) :
    moreParts text (part :: parts) ++ rest =
      ',' :: (text part ++ (moreParts text parts ++ rest)) := by
  rw [moreParts, List.flatMap_cons, List.cons_append, List.cons_append, List.append_assoc,
    moreParts]

theorem length_le_moreParts (parts : List α) : parts.length ≤ (moreParts text parts).length := by
  induction parts with
  | nil => exact Nat.le_refl 0
  | cons part parts ih =>
    rw [moreParts, List.flatMap_cons, List.length_append, List.length_cons, List.length_cons]
    exact Nat.le_trans (Nat.succ_le_succ ih) (by rw [moreParts]; omega)

/-- What stands after a part does not continue it. -/
theorem endsNumber_moreParts (parts : List α) (close : Char)
    (hclose : close.isDigit = false ∧ close ≠ '.' ∧ close ≠ 'e' ∧ close ≠ 'E') (rest : List Char) :
    EndsNumber (moreParts text parts ++ close :: rest) := by
  cases parts with
  | nil =>
    rintro _ ⟨⟩
    exact hclose
  | cons part parts =>
    rintro _ ⟨⟩
    decide

end

/-! ### Arrays -/

/-- The reader reads the document from its text wherever the text stands, and the text can be told
from blanks and from the end of an array. -/
structure ReadsBack (item : Read Json) (j : Json) : Prop where
  begins : ∃ c cs, j.compact.toList = c :: cs ∧ isSpace c = false ∧ c ≠ ']'
  reads : ∀ rest, EndsNumber rest → item (j.compact.toList ++ rest) = .ok (j, rest)

/-- The text of an item of an array. -/
def itemText (j : Json) : List Char := j.compact.toList

theorem toList_compactItems (j : Json) (items : List Json) :
    (compactItems (j :: items)).toList = itemText j ++ moreParts itemText items := by
  induction items generalizing j with
  | nil => rw [compactItems, moreParts, List.flatMap_nil, List.append_nil, itemText]
  | cons k items ih =>
    have hcomma : ",".toList = [','] := rfl
    have hmore := moreParts_cons_append itemText k items []
    rw [List.append_nil, List.append_nil] at hmore
    have hitem (i : Json) : i.compact.toList = itemText i := rfl
    rw [compactItems, String.toList_append, String.toList_append, ih, hcomma, hmore, hitem,
      List.append_assoc, List.singleton_append]
    exact List.cons_ne_nil k items

section

variable {item : Read Json} {items : List Json}

theorem itemsAfter_moreParts (h : ∀ j ∈ items, ReadsBack item j) {fuel : Nat}
    (hfuel : items.length ≤ fuel) (rest : List Char) :
    itemsAfter item (fuel + 1) (moreParts itemText items ++ ']' :: rest) = .ok (items, rest) := by
  induction items generalizing fuel with
  | nil => rfl
  | cons j items ih =>
    obtain ⟨hj, hitems⟩ := List.forall_mem_cons.mp h
    obtain ⟨fuel, rfl⟩ := Nat.exists_eq_add_one_of_ne_zero (Nat.ne_zero_of_lt hfuel)
    obtain ⟨c, cs, hcs, hspace, hc⟩ := hj.begins
    have hitem := hj.reads _ (endsNumber_moreParts itemText items ']' (by decide) rest)
    have hmore := ih hitems (Nat.le_of_succ_le_succ hfuel)
    rw [moreParts_cons_append, itemText, itemsAfter]
    rw [hcs, List.cons_append] at hitem ⊢
    refine (bind_eq_of_ok (next?_of_not_space (by decide) _) _).trans ?_
    refine (bind_eq_of_ok (drop_cons ',' _) _).trans ?_
    refine (bind_eq_of_ok (next?_of_not_space hspace _) _).trans ?_
    simp only
    exact (bind_eq_of_ok hitem _).trans ((bind_eq_of_ok hmore _).trans rfl)

/-- The items of an array are read from their texts. -/
theorem items_compactItems (h : ∀ j ∈ items, ReadsBack item j) (rest : List Char) :
    Read.items item ((compactItems items).toList ++ ']' :: rest) = .ok (items, rest) := by
  cases items with
  | nil => rfl
  | cons j items =>
    obtain ⟨hj, hitems⟩ := List.forall_mem_cons.mp h
    obtain ⟨c, cs, hcs, hspace, hc⟩ := hj.begins
    let left := moreParts itemText items ++ ']' :: rest
    have hitem := hj.reads left (endsNumber_moreParts itemText items ']' (by decide) rest)
    have hfuel : items.length ≤ left.length := by
      rw [List.length_append]
      exact Nat.le_trans (length_le_moreParts itemText items) (Nat.le_add_right _ _)
    have hmore := itemsAfter_moreParts hitems hfuel rest
    rw [toList_compactItems, List.append_assoc, itemText, Read.items]
    rw [hcs, List.cons_append] at hitem ⊢
    refine (bind_eq_of_ok (next?_of_not_space hspace _) _).trans ?_
    simp only
    refine (bind_eq_of_ok hitem _).trans ?_
    refine (bind_eq_of_ok (show (get : Read _) left = .ok (left, left) from rfl) _).trans ?_
    exact (bind_eq_of_ok hmore _).trans rfl

end

/-! ### Objects -/

/-- The text of a member of an object. -/
def memberText (f : String × Json) : List Char := (quote f.1).toList ++ ':' :: f.2.compact.toList

theorem memberText_eq (f : String × Json) : ∃ cs, memberText f = '"' :: cs := by
  rw [memberText, toList_quote]
  exact ⟨_, rfl⟩

theorem toList_compactMembers (f : String × Json) (fields : Fields Json) :
    (compactMembers (f :: fields)).toList = memberText f ++ moreParts memberText fields := by
  have htext (f : String × Json) :
      (quote f.1 ++ ":" ++ f.2.compact).toList = memberText f := by
    have hcolon : ":".toList = [':'] := rfl
    rw [String.toList_append, String.toList_append, List.append_assoc, hcolon, memberText,
      List.singleton_append]
  induction fields generalizing f with
  | nil => rw [compactMembers, moreParts, List.flatMap_nil, List.append_nil, htext]
  | cons g fields ih =>
    have hcomma : ",".toList = [','] := rfl
    have hmore := moreParts_cons_append memberText g fields []
    rw [List.append_nil, List.append_nil] at hmore
    rw [compactMembers, String.toList_append, String.toList_append, ih, htext, hcomma, hmore,
      List.append_assoc, List.singleton_append]
    exact List.cons_ne_nil g fields

section

variable {item : Read Json} {fields : Fields Json}

theorem member_memberText {f : String × Json} (h : ReadsBack item f.2) {rest : List Char}
    (hrest : EndsNumber rest) : Read.member item (memberText f ++ rest) = .ok (f, rest) := by
  have hkey := string_quote f.1 (':' :: (f.2.compact.toList ++ rest))
  have hvalue := h.reads rest hrest
  rw [memberText, List.append_assoc, List.cons_append, Read.member]
  refine (bind_eq_of_ok hkey _).trans ?_
  refine (bind_eq_of_ok (next?_of_not_space (by decide) _) _).trans ?_
  refine (bind_eq_of_ok (drop_cons ':' _) _).trans ?_
  exact (bind_eq_of_ok hvalue _).trans rfl

theorem membersAfter_moreParts (h : ∀ f ∈ fields, ReadsBack item f.2) {fuel : Nat}
    (hfuel : fields.length ≤ fuel) (rest : List Char) :
    membersAfter item (fuel + 1) (moreParts memberText fields ++ '\x7d' :: rest) =
      .ok (fields, rest) := by
  induction fields generalizing fuel with
  | nil => rfl
  | cons f fields ih =>
    obtain ⟨hf, hfields⟩ := List.forall_mem_cons.mp h
    obtain ⟨fuel, rfl⟩ := Nat.exists_eq_add_one_of_ne_zero (Nat.ne_zero_of_lt hfuel)
    obtain ⟨cs, hcs⟩ := memberText_eq f
    have hmember :=
      member_memberText hf (endsNumber_moreParts memberText fields '\x7d' (by decide) rest)
    have hmore := ih hfields (Nat.le_of_succ_le_succ hfuel)
    rw [moreParts_cons_append, membersAfter]
    rw [hcs, List.cons_append] at hmember ⊢
    refine (bind_eq_of_ok (next?_of_not_space (by decide) _) _).trans ?_
    refine (bind_eq_of_ok (drop_cons ',' _) _).trans ?_
    refine (bind_eq_of_ok (next?_of_not_space (by decide) _) _).trans ?_
    exact (bind_eq_of_ok hmember _).trans ((bind_eq_of_ok hmore _).trans rfl)

/-- The members of an object are read from their texts. -/
theorem members_compactMembers (h : ∀ f ∈ fields, ReadsBack item f.2) (rest : List Char) :
    Read.members item ((compactMembers fields).toList ++ '\x7d' :: rest) = .ok (fields, rest) := by
  cases fields with
  | nil => rfl
  | cons f fields =>
    obtain ⟨hf, hfields⟩ := List.forall_mem_cons.mp h
    obtain ⟨cs, hcs⟩ := memberText_eq f
    let left := moreParts memberText fields ++ '\x7d' :: rest
    have hmember :=
      member_memberText hf (endsNumber_moreParts memberText fields '\x7d' (by decide) rest)
    have hfuel : fields.length ≤ left.length := by
      rw [List.length_append]
      exact Nat.le_trans (length_le_moreParts memberText fields) (Nat.le_add_right _ _)
    have hmore := membersAfter_moreParts hfields hfuel rest
    rw [toList_compactMembers, List.append_assoc, Read.members]
    rw [hcs, List.cons_append] at hmember ⊢
    refine (bind_eq_of_ok (next?_of_not_space (by decide) _) _).trans ?_
    refine (bind_eq_of_ok hmember _).trans ?_
    refine (bind_eq_of_ok (show (get : Read _) left = .ok (left, left) from rfl) _).trans ?_
    exact (bind_eq_of_ok hmore _).trans rfl

end

/-! ### Documents -/

/-- The text of a number does not begin with a blank or a bracket. -/
theorem toString_begins (n : Int) :
    ∃ c cs, (toString n).toList = c :: cs ∧ isSpace c = false ∧ c ≠ ']' := by
  obtain ⟨c, cs, hcs⟩ := List.exists_cons_of_ne_nil (l := (toString n).toList) (by
    rw [toList_toString_int]
    split
    · exact List.cons_ne_nil _ _
    · exact Nat.toDigits_ne_nil)
  refine ⟨c, cs, hcs, ?_⟩
  obtain hdigit | rfl := isDigit_or_minus_of_mem_toString (hcs ▸ List.mem_cons_self)
  · have hne {d : Char} (hd : d.isDigit = false) : c ≠ d := by
      rintro rfl
      rw [hdigit] at hd
      cases hd
    exact ⟨by simp [isSpace, hne (d := ' ') rfl, hne (d := '\n') rfl, hne (d := '\t') rfl,
      hne (d := '\r') rfl], hne rfl⟩
  · exact ⟨rfl, by decide⟩

theorem toList_compact_array (items : List Json) :
    (compact (.array items)).toList = '[' :: ((compactItems items).toList ++ [']']) := by
  rw [compact, String.toList_append, String.toList_append]
  rfl

theorem toList_compact_object (fields : Fields Json) :
    (compact (.object fields)).toList = '\x7b' :: ((compactMembers fields).toList ++ ['\x7d']) := by
  rw [compact, String.toList_append, String.toList_append]
  rfl

/-- The text of a plain document begins with neither a blank nor a bracket that closes. -/
theorem IsPlain.begins {depth : Nat} {j : Json} (h : IsPlain depth j) :
    ∃ c cs, j.compact.toList = c :: cs ∧ isSpace c = false ∧ c ≠ ']' := by
  cases h with
  | null => exact ⟨'n', _, rfl, by decide, by decide⟩
  | bool b =>
    cases b with
    | false => exact ⟨'f', _, rfl, by decide, by decide⟩
    | true => exact ⟨'t', _, rfl, by decide, by decide⟩
  | int _ _ => exact toString_begins _
  | string s => exact ⟨'"', _, toList_quote s, by decide, by decide⟩
  | array _ => exact ⟨'[', _, toList_compact_array _, by decide, by decide⟩
  | object _ _ => exact ⟨'\x7b', _, toList_compact_object _, by decide, by decide⟩

/-- Whatever may lie in a document, a string is one. -/
theorem valueWith_of_string (nested : Option (Read Json)) {cs rest : List Char} {s : String}
    (h : Read.string ('"' :: cs) = .ok (s, rest)) :
    valueWith nested ('"' :: cs) = .ok (.string s, rest) := by
  unfold valueWith
  refine (bind_eq_of_ok (next?_of_not_space (by decide) _) _).trans ?_
  exact (bind_eq_of_ok h _).trans rfl

theorem valueWith_quote (nested : Option (Read Json)) (s : String) (rest : List Char) :
    valueWith nested ((quote s).toList ++ rest) = .ok (.string s, rest) := by
  have hstring := string_quote s rest
  rw [toList_quote, List.cons_append] at hstring ⊢
  exact valueWith_of_string nested hstring

/-- What is read whatever may lie in a document is read at every depth. -/
theorem value_of_valueWith {cs : List Char} {x : Except Fault (Json × List Char)}
    (h : ∀ nested, valueWith nested cs = x) (depth : Nat) : Read.value depth cs = x := by
  cases depth with
  | zero => exact h none
  | succ depth => exact h _

/-- Plain documents are read back wherever their texts stand. -/
theorem IsPlain.readsBack {depth : Nat} {j : Json} (h : IsPlain depth j) :
    ReadsBack (Read.value depth) j := by
  refine ⟨h.begins, ?_⟩
  induction h with
  | null => exact fun rest _ => value_of_valueWith (fun _ => rfl) _
  | bool b =>
    cases b with
    | false => exact fun rest _ => value_of_valueWith (fun _ => rfl) _
    | true => exact fun rest _ => value_of_valueWith (fun _ => rfl) _
  | int hmin hmax =>
    exact fun rest hrest =>
      value_of_valueWith (fun nested => valueWith_toString nested hmin hmax hrest) _
  | string s =>
    exact fun rest _ => value_of_valueWith (fun nested => valueWith_quote nested s rest) _
  | @array depth items h ih =>
    intro rest _
    have hitems := items_compactItems (fun j hj => ⟨(h j hj).begins, ih j hj⟩) rest
    rw [toList_compact_array, List.cons_append, List.append_assoc, Read.value, valueWith]
    refine (bind_eq_of_ok (next?_of_not_space (by decide) _) _).trans ?_
    refine (bind_eq_of_ok (drop_cons '[' _) _).trans ?_
    exact (bind_eq_of_ok hitems _).trans rfl
  | @object depth fields hkeys h ih =>
    intro rest _
    have hmembers := members_compactMembers (fun f hf => ⟨(h f hf).begins, ih f hf⟩) rest
    have hfields : Fields.insertAll [] fields = fields := Fields.insertAll_of_nodup hkeys
    rw [toList_compact_object, List.cons_append, List.append_assoc, Read.value, valueWith]
    refine (bind_eq_of_ok (next?_of_not_space (by decide) _) _).trans ?_
    refine (bind_eq_of_ok (drop_cons '\x7b' _) _).trans ?_
    refine (bind_eq_of_ok hmembers _).trans ?_
    rw [hfields]
    rfl

/-- **Plain documents are read back.** The compact text of a plain document is read as the
document. -/
theorem parse_compact {j : Json} (h : IsPlain greatestDepth j) : parse j.compact = .ok j := by
  have hvalue := h.readsBack.reads [] endsNumber_nil
  rw [List.append_nil] at hvalue
  exact parse_of_value hvalue

end GatewayMapping.Json
