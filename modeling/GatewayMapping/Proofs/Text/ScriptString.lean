import GatewayMapping.Proofs.Json.CompactReading
import GatewayMapping.Proofs.Text.FormUrl
import GatewayMapping.Text.ScriptString

/-!
# Escaped texts as script and JSON strings

Escaping a text gives printable characters of ASCII and `DEL`. In it each quote stands behind a
backslash that is not itself escaped, so the text does not end a literal that it is put in, and as
the inside of such a literal it stands for the text that was escaped
(`Text.ScriptString.encoded_reads_back`). A JSON string knows every escape but the one for the
single quote, so without single quotes the escaped text is the inside of a JSON string as well.

A script literal is read in two steps: first the UTF-16 units that its characters and escapes stand
for, then the characters of the units, where surrogates have to come in pairs. No escape is longer
than what is written for one character, so reading goes on after each character as it began.

## Main definitions

* `Text.ScriptString.decode?`: the text that the inside of a script literal stands for.
* `Text.ScriptString.endsOpen`: the text ends with a backslash that is not escaped.
* `Text.ScriptString.Form`: how a character is written.

## Main results

* `Text.ScriptString.encoded_reads_back`: the escaped text is safe in a literal and stands for the
  text.
-/

namespace GatewayMapping.Text.ScriptString

/-! ### Script literals -/

/-- The character that a letter or sign stands for after a backslash. -/
def escaped? : Char → Option Char
  | '\'' => some '\''
  | '"' => some '"'
  | '\\' => some '\\'
  | '/' => some '/'
  | 'b' => some (Char.ofNat 8)
  | 'n' => some '\n'
  | 't' => some '\t'
  | 'f' => some (Char.ofNat 12)
  | 'r' => some '\r'
  | _ => none

/-- Whether a character may stand in a literal as it is. Quotes, backslashes and the ends of lines
may not. -/
def isPlain (c : Char) : Bool := c ∉ ['\'', '"', '\\', '\n', '\r', '\u2028', '\u2029']

/-- The UTF-16 units that the inside of a literal stands for. -/
def units? : List Char → Option (List Nat)
  | [] => some []
  | '\\' :: 'u' :: a :: b :: c :: d :: cs => do
    let unit := (((← hexValue? a) * 16 + (← hexValue? b)) * 16 + (← hexValue? c)) * 16 +
      (← hexValue? d)
    return unit :: (← units? cs)
  | '\\' :: e :: cs => do return units (← escaped? e).toNat ++ (← units? cs)
  | c :: cs => if isPlain c then (units? cs).map (units c.toNat ++ ·) else none

/-- The characters of UTF-16 units, if each surrogate is one of a pair. -/
def ofUnits? : List Nat → Option (List Char)
  | [] => some []
  | u :: us =>
    if 0xD800 ≤ u ∧ u ≤ 0xDFFF then
      match us with
      | [] => none
      | v :: us =>
        if u ≤ 0xDBFF ∧ 0xDC00 ≤ v ∧ v ≤ 0xDFFF then
          (ofUnits? us).map (Char.ofNat (0x10000 + (u - 0xD800) * 1024 + (v - 0xDC00)) :: ·)
        else none
    else (ofUnits? us).map (Char.ofNat u :: ·)

/-- The text that the inside of a script literal stands for. -/
def decode? (s : String) : Option String :=
  ((units? s.toList).bind ofUnits?).map String.ofList

/-- Whether a text ends with a backslash that escapes what follows: one that is not escaped. -/
def endsOpen (cs : List Char) : Bool := cs.foldl (fun isOpen c => c = '\\' && !isOpen) false

/-! ### How characters are written -/

/-- How a character is written: behind a backslash, as the escapes of its units, or as it is. -/
inductive Form (c : Char) : List Char → Prop
  | escape {e : Char} (he : escaped? e = some c) : Form c ['\\', e]
  | units (hc : c.toNat < 0x20 ∨ 0x7F < c.toNat) : Form c ((units c.toNat).flatMap unitEscape)
  | plain (hplain : isPlain c = true) (hlow : 0x20 ≤ c.toNat) (hhigh : c.toNat ≤ 0x7F) :
      Form c [c]

theorem form_encodeChar (c : Char) : Form c (encodeChar c) := by
  unfold encodeChar
  split_ifs with hquoted hback hline htab hfeed hreturn hunits
  · refine .escape ?_
    simp only [Bool.or_eq_true, decide_eq_true_eq] at hquoted
    obtain ((rfl | rfl) | rfl) | rfl := hquoted <;> rfl
  · exact hback ▸ .escape rfl
  · exact hline ▸ .escape rfl
  · exact htab ▸ .escape rfl
  · exact hfeed ▸ .escape rfl
  · exact hreturn ▸ .escape rfl
  · exact .units (by simpa using hunits)
  · simp only [Bool.or_eq_true, decide_eq_true_eq, not_or, Nat.not_lt] at hquoted hunits
    obtain ⟨⟨⟨hsingle, hdouble⟩, hslash⟩, -⟩ := hquoted
    have hend : ∀ d : Char, 0x7F < d.toNat → c ≠ d := by
      rintro _ hd rfl
      omega
    refine .plain ?_ hunits.1 hunits.2
    simp [isPlain, hsingle, hdouble, hslash, hline, hreturn, hend '\u2028' (by decide),
      hend '\u2029' (by decide)]

/-! ### Characters of an escaped text -/

theorem hexDigit_printable : ∀ n < 16, 0x20 ≤ (hexDigit n).toNat ∧ (hexDigit n).toNat ≤ 0x7F ∧
    hexDigit n ∉ ['\'', '"', '\\'] := by decide

/-- An escape of a unit is made of a backslash, an `u` and four digits. -/
theorem forall_mem_unitEscape {P : Char → Prop} (hslash : P '\\') (hu : P 'u')
    (hdigit : ∀ n < 16, P (hexDigit n)) (n : Nat) : ∀ c ∈ unitEscape n, P c := by
  simp only [unitEscape, List.forall_mem_cons, List.not_mem_nil, false_imp_iff, implies_true,
    and_true]
  exact ⟨hslash, hu, hdigit _ (Nat.mod_lt _ (by decide)), hdigit _ (Nat.mod_lt _ (by decide)),
    hdigit _ (Nat.mod_lt _ (by decide)), hdigit _ (Nat.mod_lt _ (by decide))⟩

theorem escaped?_printable {c e : Char} (h : escaped? e = some c) :
    0x20 ≤ e.toNat ∧ e.toNat ≤ 0x7F := by
  unfold escaped? at h
  split at h <;> first | decide | cases h

namespace Form

variable {c : Char} {cs : List Char}

theorem printable (h : Form c cs) : ∀ d ∈ cs, 0x20 ≤ d.toNat ∧ d.toNat ≤ 0x7F := by
  cases h with
  | escape he =>
    simp only [List.forall_mem_cons, List.not_mem_nil, false_imp_iff, implies_true, and_true]
    exact ⟨by decide, escaped?_printable he⟩
  | units _ =>
    simp only [List.mem_flatMap, forall_exists_index, and_imp]
    intro d n _
    refine forall_mem_unitEscape (P := fun d => 0x20 ≤ d.toNat ∧ d.toNat ≤ 0x7F) (by decide)
      (by decide) (fun n hn => ?_) n d
    exact ⟨(hexDigit_printable n hn).1, (hexDigit_printable n hn).2.1⟩
  | plain _ hlow hhigh => exact List.forall_mem_singleton.mpr ⟨hlow, hhigh⟩

end Form

/-! ### Reading -/

/-- The value of the four digits of a unit. -/
theorem digits_value {n : Nat} (hn : n < 0x10000) :
    ((n / 4096 % 16 * 16 + n / 256 % 16) * 16 + n / 16 % 16) * 16 + n % 16 = n := by omega

theorem units?_unitEscape_append {n : Nat} (hn : n < 0x10000) (cs : List Char) :
    units? (unitEscape n ++ cs) = (units? cs).map (n :: ·) := by
  have hdigit (k : Nat) : hexValue? (hexDigit (k % 16)) = some (k % 16) :=
    FormUrl.hexValue?_hexDigit _ (Nat.mod_lt _ (by decide))
  simp only [unitEscape, List.cons_append, List.nil_append]
  rw [units?, hdigit, hdigit, hdigit, hdigit]
  simp only [Option.bind_eq_bind, Option.bind_some, digits_value hn]
  cases units? cs <;> rfl

theorem lt_of_mem_units {c : Char} : ∀ n ∈ units c.toNat, n < 0x10000 := by
  have := Utf8.toNat_valid c
  unfold units
  split
  · exact List.forall_mem_singleton.mpr ‹_›
  · simp only [List.forall_mem_cons, List.not_mem_nil, false_imp_iff, implies_true, and_true]
    omega

theorem units?_flatMap_append {ns : List Nat} (h : ∀ n ∈ ns, n < 0x10000) (cs : List Char) :
    units? (ns.flatMap unitEscape ++ cs) = (units? cs).map (ns ++ ·) := by
  induction ns with
  | nil =>
    rw [List.flatMap_nil, List.nil_append]
    exact Option.map_id'.symm
  | cons n ns ih =>
    obtain ⟨hn, hns⟩ := List.forall_mem_cons.mp h
    rw [List.flatMap_cons, List.append_assoc, units?_unitEscape_append hn, ih hns, Option.map_map]
    rfl

/-- What is written for a character stands for its units, whatever follows. -/
theorem units?_encodeChar_append (c : Char) (cs : List Char) :
    units? (encodeChar c ++ cs) = (units? cs).map (units c.toNat ++ ·) := by
  generalize hform : encodeChar c = form
  cases hform ▸ form_encodeChar c with
  | @escape e he =>
    rw [List.cons_append, List.cons_append, List.nil_append, units?, he]
    · cases units? cs <;> rfl
    · rintro _ _ _ _ _ rfl _
      cases he
  | units _ => exact units?_flatMap_append lt_of_mem_units cs
  | plain hplain _ _ =>
    rw [List.cons_append, List.nil_append, units?, if_pos hplain]
    · rintro _ _ _ _ _ rfl _
      cases hplain
    · rintro _ _ rfl _
      cases hplain

theorem units?_encode (cs : List Char) :
    units? (cs.flatMap encodeChar) = some (cs.flatMap fun c => units c.toNat) := by
  induction cs with
  | nil => rfl
  | cons c cs ih => rw [List.flatMap_cons, units?_encodeChar_append, ih, List.flatMap_cons]; rfl

/-- The units of a character are read as the character, whatever follows. -/
theorem ofUnits?_units_append (c : Char) (us : List Nat) :
    ofUnits? (units c.toNat ++ us) = (ofUnits? us).map (c :: ·) := by
  have hvalid := Utf8.toNat_valid c
  unfold units
  split
  · rw [List.cons_append, List.nil_append, ofUnits?.eq_def]
    simp only [if_neg (by omega : ¬(0xD800 ≤ c.toNat ∧ c.toNat ≤ 0xDFFF)), Char.ofNat_toNat]
  · have hchar : 0x10000 + (0xD800 + (c.toNat - 0x10000) / 1024 - 0xD800) * 1024 +
        (0xDC00 + (c.toNat - 0x10000) % 1024 - 0xDC00) = c.toNat := by omega
    rw [List.cons_append, List.cons_append, List.nil_append, ofUnits?, if_pos (by omega),
      if_pos (by omega), hchar, Char.ofNat_toNat]

theorem ofUnits?_units (cs : List Char) :
    ofUnits? (cs.flatMap fun c => units c.toNat) = some cs := by
  induction cs with
  | nil => rfl
  | cons c cs ih => rw [List.flatMap_cons, ofUnits?_units_append, ih, Option.map_some]

/-- The escaped text stands for the text. -/
theorem decode?_encode (s : String) : decode? (encode s) = some s := by
  rw [decode?, encode, String.toList_ofList, units?_encode, Option.bind_some, ofUnits?_units,
    Option.map_some, String.ofList_toList]

/-! ### Quotes -/

/-- The text does not end behind an open backslash, and each of its quotes stands behind one. -/
structure IsSafe (cs : List Char) : Prop where
  closed : endsOpen cs = false
  quotes : ∀ front q back, cs = front ++ q :: back → q = '\'' ∨ q = '"' → endsOpen front = true

theorem endsOpen_append {cs : List Char} (h : endsOpen cs = false) (ds : List Char) :
    endsOpen (cs ++ ds) = endsOpen ds := by
  rw [endsOpen] at h
  rw [endsOpen, List.foldl_append, h]
  rfl

namespace IsSafe

variable {cs ds : List Char}

theorem nil : IsSafe [] := ⟨rfl, fun front q back h => absurd h (by simp)⟩

theorem append (hcs : IsSafe cs) (hds : IsSafe ds) : IsSafe (cs ++ ds) where
  closed := (endsOpen_append hcs.closed ds).trans hds.closed
  quotes front q back h hq := by
    obtain ⟨rest, rfl, hrest⟩ | ⟨rest, hcs', hrest⟩ := List.append_eq_append_iff.mp h
    · rw [endsOpen_append hcs.closed]
      exact hds.quotes rest q back hrest hq
    · cases rest with
      | nil => exact absurd (hds.quotes [] q back hrest.symm hq) (by decide)
      | cons d rest =>
        obtain ⟨rfl, -⟩ := List.cons.inj hrest
        exact hcs.quotes front q rest hcs' hq

theorem singleton {c : Char} (hc : c ∉ ['\'', '"', '\\']) : IsSafe [c] := by
  simp only [List.mem_cons, List.not_mem_nil, or_false, not_or] at hc
  obtain ⟨hsingle, hdouble, hslash⟩ := hc
  refine ⟨by simp [endsOpen, hslash], fun front q back h hq => ?_⟩
  obtain rfl : c = q := by
    cases front with
    | nil => exact (List.cons.inj h).1
    | cons d front => exact absurd (List.cons.inj h).2.symm (by simp)
  exact absurd hq (not_or.mpr ⟨hsingle, hdouble⟩)

/-- A backslash and what it escapes. -/
theorem escape (e : Char) : IsSafe ['\\', e] := by
  refine ⟨by simp [endsOpen], fun front q back h hq => ?_⟩
  match front, h with
  | [], h =>
    obtain ⟨rfl, -⟩ := List.cons.inj h
    exact absurd hq (by decide)
  | [d], h =>
    obtain ⟨rfl, -⟩ := List.cons.inj h
    rfl
  | _ :: _ :: front, h => exact absurd (List.cons.inj (List.cons.inj h).2).2.symm (by simp)

theorem flatMap {α : Type} {f : α → List Char} (xs : List α) (h : ∀ x ∈ xs, IsSafe (f x)) :
    IsSafe (xs.flatMap f) := by
  induction xs with
  | nil => exact nil
  | cons x xs ih =>
    obtain ⟨hx, hxs⟩ := List.forall_mem_cons.mp h
    rw [List.flatMap_cons]
    exact hx.append (ih hxs)

theorem unitEscape (n : Nat) : IsSafe (unitEscape n) := by
  have hdigit (k : Nat) : IsSafe [hexDigit (k % 16)] :=
    singleton (hexDigit_printable _ (Nat.mod_lt _ (by decide))).2.2
  exact (escape 'u').append ((hdigit _).append ((hdigit _).append ((hdigit _).append (hdigit n))))

end IsSafe

theorem Form.isSafe {c : Char} {cs : List Char} (h : Form c cs) : IsSafe cs := by
  cases h with
  | escape _ => exact .escape _
  | units _ => exact .flatMap _ fun n _ => .unitEscape n
  | plain hplain _ _ =>
    refine .singleton fun hc => ?_
    simp only [List.mem_cons, List.not_mem_nil, or_false] at hc
    rcases hc with rfl | rfl | rfl <;> cases hplain

/-! ### JSON strings -/

/-- The digits of the escape of a unit. -/
def digits (n : Nat) : List Char :=
  [hexDigit (n / 4096 % 16), hexDigit (n / 256 % 16), hexDigit (n / 16 % 16), hexDigit (n % 16)]

theorem hexUnit_digits {n : Nat} (hn : n < 0x10000) (cs : List Char) :
    Json.Read.hexUnit (digits n ++ cs) = .ok (n, cs) := by
  have hdigits : ∀ k < 16, Json.Read.hexValue? (hexDigit k) = some k := by decide
  have hdigit (k : Nat) : Json.Read.hexValue? (hexDigit (k % 16)) = some (k % 16) :=
    hdigits _ (Nat.mod_lt _ (by decide))
  rw [digits, List.cons_append, List.cons_append, List.cons_append, List.cons_append,
    List.nil_append, Json.Read.hexUnit, hdigit, hdigit, hdigit, hdigit]
  exact congrArg (fun n => Except.ok (n, cs)) (digits_value hn)

/-- The escape of a unit that is no surrogate is read as its character. -/
theorem escape_unit {n : Nat} (hn : n < 0x10000) (hsurrogate : n < 0xD800 ∨ 0xDFFF < n)
    (cs : List Char) : Json.Read.escape ('u' :: (digits n ++ cs)) = .ok (Char.ofNat n, cs) := by
  have hlow : ¬(0xDC00 ≤ n && n ≤ 0xDFFF) = true := by simp; omega
  have hhigh : ¬(0xD800 ≤ n && n ≤ 0xDBFF) = true := by simp; omega
  simp only [Json.Read.escape, hexUnit_digits hn, bind, Except.bind, if_neg hlow, if_neg hhigh]
  rfl

/-- The escapes of a pair of surrogates are read as one character. -/
theorem escape_pair {u v : Nat} (hu : 0xD800 ≤ u ∧ u ≤ 0xDBFF) (hv : 0xDC00 ≤ v ∧ v ≤ 0xDFFF)
    (cs : List Char) :
    Json.Read.escape ('u' :: (digits u ++ '\\' :: 'u' :: (digits v ++ cs))) =
      .ok (Char.ofNat ((u - 0xD800) * 1024 + (v - 0xDC00) + 0x10000), cs) := by
  have hlow : ¬(0xDC00 ≤ u && u ≤ 0xDFFF) = true := by simp; omega
  have hhigh : (0xD800 ≤ u && u ≤ 0xDBFF) = true := by simp; omega
  have hsecond : (0xDC00 ≤ v && v ≤ 0xDFFF) = true := by simp; omega
  simp only [Json.Read.escape, hexUnit_digits (by omega : u < 0x10000), bind, Except.bind,
    if_neg hlow, if_pos hhigh, Json.Read.lowSurrogate, hexUnit_digits (by omega : v < 0x10000),
    if_pos hsecond]
  rfl

/-- The escapes of the units of a character stand for the character in a JSON string. -/
theorem standsFor_units (c : Char) : Json.StandsFor ((units c.toNat).flatMap unitEscape) c := by
  have hvalid := Utf8.toNat_valid c
  unfold units
  split
  · rename_i hlt
    refine .inl ⟨'u' :: digits c.toNat, rfl, fun rest => ?_⟩
    rw [List.cons_append, escape_unit hlt (by omega), Char.ofNat_toNat]
  · let u := 0xD800 + (c.toNat - 0x10000) / 1024
    let v := 0xDC00 + (c.toNat - 0x10000) % 1024
    have hchar : (u - 0xD800) * 1024 + (v - 0xDC00) + 0x10000 = c.toNat := by omega
    refine .inl ⟨'u' :: (digits u ++ '\\' :: 'u' :: digits v), rfl, fun rest => ?_⟩
    have hpair := escape_pair (u := u) (v := v) (by omega) (by omega) rest
    rw [hchar, Char.ofNat_toNat] at hpair
    rw [← hpair, List.cons_append, List.append_assoc]
    rfl

/-- Every character but the single quote is written as it may be in a JSON string. -/
theorem Form.standsFor {c : Char} {cs : List Char} (h : Form c cs) (hc : c ≠ '\'') :
    Json.StandsFor cs c := by
  cases h with
  | @escape e he =>
    refine .inl ⟨[e], rfl, fun rest => ?_⟩
    unfold escaped? at he
    split at he <;> cases he
    · exact absurd rfl hc
    all_goals rfl
  | units _ => exact standsFor_units c
  | plain hplain hlow _ =>
    refine .inr ⟨rfl, ?_, ?_, Nat.not_lt.mpr hlow⟩
    · rintro rfl
      cases hplain
    · rintro rfl
      cases hplain

/-- The escaped text of a text without single quotes is the inside of a JSON string. -/
theorem parse_quoted_encode {s : String} (hs : '\'' ∉ s.toList) :
    Json.parse ("\"" ++ encode s ++ "\"") = .ok (.string s) := by
  have hform : ∀ c ∈ s.toList, Json.StandsFor (encodeChar c) c := fun c hc =>
    (form_encodeChar c).standsFor fun heq => hs (heq ▸ hc)
  have htext : ("\"" ++ encode s ++ "\"").toList =
      '"' :: (s.toList.flatMap encodeChar ++ ['"']) := by
    simp [encode]
  have hstring := Json.string_flatMap hform []
  rw [String.ofList_toList] at hstring
  refine Json.parse_of_value ?_
  rw [htext]
  exact Json.value_of_valueWith (fun nested => Json.valueWith_of_string nested hstring) _

/-! ### The round trip -/

/-- **Escaped texts are safe in literals and stand for the text.** The characters of an escaped
text are printable ones of ASCII and `DEL`, and each of its quotes is escaped. As the inside of a
script literal it stands for the text, and, if there is no single quote in the text, also as the
inside of a JSON string. -/
theorem encoded_reads_back (s : String) :
    (∀ c ∈ (encode s).toList, 0x20 ≤ c.toNat ∧ c.toNat ≤ 0x7F) ∧
      (∀ front q back, (encode s).toList = front ++ q :: back → q = '\'' ∨ q = '"' →
        endsOpen front = true) ∧
      decode? (encode s) = some s ∧
      ('\'' ∉ s.toList → Json.parse ("\"" ++ encode s ++ "\"") = .ok (.string s)) := by
  have hsafe : IsSafe (s.toList.flatMap encodeChar) :=
    .flatMap _ fun c _ => (form_encodeChar c).isSafe
  refine ⟨?_, ?_, decode?_encode s, parse_quoted_encode⟩
  · rw [encode, String.toList_ofList]
    simp only [List.mem_flatMap, forall_exists_index, and_imp]
    exact fun d c _ hd => (form_encodeChar c).printable d hd
  · rw [encode, String.toList_ofList]
    exact hsafe.quotes

/-- A quote, a slash, a line break, a backslash, a character of two units, `DEL` and an `é`. -/
theorem encoded_reads_back_quoted :
    let s := "\"/\n\\😀\x7fé"
    encode s = "\\\"\\/\\n\\\\\\uD83D\\uDE00\x7f\\u00E9" ∧
      decode? (encode s) = some s ∧ '\'' ∉ s.toList ∧
      Json.parse ("\"" ++ encode s ++ "\"") = .ok (.string s) := by
  intro s
  have hs : '\'' ∉ s.toList := by decide
  obtain ⟨-, -, hread, hjson⟩ := encoded_reads_back s
  exact ⟨by decide, hread, hs, hjson hs⟩

end GatewayMapping.Text.ScriptString
