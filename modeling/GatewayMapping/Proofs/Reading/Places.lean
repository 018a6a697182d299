import Mathlib.Algebra.GroupWithZero.Nat
import Mathlib.Data.List.Count
import Mathlib.Data.List.Induction
import GatewayMapping.Proofs.Printing.Expression
import GatewayMapping.Proofs.Reading.Leftover
import GatewayMapping.Proofs.Syntax.References

/-!
# Places in a source

The place of a cursor is the place after the characters passed, so it is known from what is left
of the text (`Cursor.Within`). Inside double quotes the text is their content, in which two double
quotes of the text around it have become one, while the places are counted from the opening quote
on. A line of the content is shorter than the line of the text, by one character for each of its
double quotes (`Position.afterAll_doubled`).

## Main definitions

* `Position.afterAll`: the place after some characters.
* `Occurs`: where something stands in a text, possibly inside double quotes.
* `Reference.StandsIn`: a reference with its place stands in a text.
* `Cursor.Within`: a cursor into a text.
* `Read.Finds`: a reader goes on in a text, with a result that is as described.
-/

namespace GatewayMapping.Template

/-! ### Places -/

/-- The place after some characters. -/
def Position.afterAll (p : Position) (cs : List Char) : Position := cs.foldl Position.after p

/-- The characters after the last line break. -/
def lastLine (cs : List Char) : List Char := (cs.reverse.takeWhile (· ≠ '\n')).reverse

/-- The number of double quotes in the last line. -/
def lastLineQuotes (cs : List Char) : Nat := (lastLine cs).count '"'

theorem lastLine_concat (cs : List Char) (c : Char) :
    lastLine (cs ++ [c]) = if c = '\n' then [] else lastLine cs ++ [c] := by
  rw [lastLine, List.reverse_concat]
  by_cases hc : c = '\n'
  · rw [if_pos hc, List.takeWhile_cons_of_neg (by simpa using hc), List.reverse_nil]
  · rw [if_neg hc, List.takeWhile_cons_of_pos (by simpa using hc), List.reverse_cons, lastLine]

theorem lastLineQuotes_concat (cs : List Char) (c : Char) :
    lastLineQuotes (cs ++ [c]) =
      if c = '\n' then 0 else lastLineQuotes cs + if c = '"' then 1 else 0 := by
  rw [lastLineQuotes, lastLine_concat]
  split
  · rfl
  · rw [List.count_append, List.count_singleton, lastLineQuotes]
    simp only [beq_iff_eq]

namespace Position

theorem after_lineFeed (p : Position) : p.after '\n' = ⟨p.line + 1, 1⟩ := rfl

theorem after_of_ne (p : Position) {c : Char} (hc : c ≠ '\n') :
    p.after c = ⟨p.line, p.column + 1⟩ := if_neg hc

theorem afterAll_append (p : Position) (cs ds : List Char) :
    p.afterAll (cs ++ ds) = (p.afterAll cs).afterAll ds :=
  List.foldl_append

theorem afterAll_concat (p : Position) (cs : List Char) (c : Char) :
    p.afterAll (cs ++ [c]) = (p.afterAll cs).after c :=
  p.afterAll_append cs [c]

end Position

theorem doubled_append (quote : Char) (cs ds : List Char) :
    doubled quote (cs ++ ds) = doubled quote cs ++ doubled quote ds := by
  induction cs with
  | nil => rfl
  | cons c cs ih =>
    rw [List.cons_append, doubled, doubled, ih]
    split <;> rfl

/-- A text in which the double quotes are doubled ends in the same line, with its last line longer
by the double quotes in it. -/
theorem Position.afterAll_doubled (p : Position) (cs : List Char) :
    p.afterAll (doubled '"' cs) =
      ⟨(p.afterAll cs).line, (p.afterAll cs).column + lastLineQuotes cs⟩ := by
  induction cs using List.reverseRecOn with
  | nil => rfl
  | append_singleton cs c ih =>
    rw [doubled_append, afterAll_append, ih, afterAll_concat, lastLineQuotes_concat]
    by_cases hc : c = '\n'
    · subst hc
      rfl
    · by_cases hq : c = '"'
      · subst hq
        simp [doubled, afterAll, after]
        omega
      · simp [doubled, afterAll, after, hc, hq]
        omega

/-! ### Where something stands -/

/-- In the text, `tail` stands after `front`. It may stand inside double quotes, in the content of
which it has the last one of the `contents` before it, and these quotes may stand inside others. -/
inductive Occurs : (text front : List Char) → (contents : List (List Char)) → (tail : List Char) →
    Prop
  | here {front tail} : Occurs (front ++ tail) front [] tail
  | quoted {before rest content front contents tail} {n : Nat}
      (hcontent : Read.quotedContent? '"' rest = some (content, n))
      (h : Occurs content front contents tail) :
      Occurs (before ++ '"' :: rest) (before ++ '"' :: doubled '"' front) (front :: contents) tail

/-- The reference stands in the text, which begins at `base`. Its place is in the line where it
stands, before it by the double quotes in the last lines of the contents of quotes around it. -/
def Reference.StandsIn (text : List Char) (base : Position) (r : Reference) : Prop :=
  ∃ front contents rest, Occurs text front contents (r.literal.toList ++ rest) ∧
    r.literal.toList.head? = some '$' ∧ base.afterAll front =
      ⟨r.position.line, r.position.column + (contents.map lastLineQuotes).sum⟩

/-- The content of quotes is written with its quotes doubled. -/
theorem Read.eq_doubled_of_quotedContent? {quote : Char} {cs content : List Char} {n : Nat}
    (h : quotedContent? quote cs = some (content, n)) :
    ∃ rest, cs = doubled quote content ++ quote :: rest := by
  induction cs using quotedContent?.induct quote generalizing content n with
  | case1 => cases h
  | case2 =>
    rw [quotedContent?, if_pos rfl] at h
    cases h
    exact ⟨[], rfl⟩
  | case3 c hc =>
    rw [quotedContent?, if_neg hc] at h
    cases h
  | case4 cs ih =>
    rw [quotedContent?, if_pos rfl, if_pos rfl, Option.map_eq_some_iff] at h
    obtain ⟨⟨content, m⟩, hcontent, heq⟩ := h
    cases heq
    obtain ⟨rest, rfl⟩ := ih hcontent
    exact ⟨rest, by rw [doubled, if_pos rfl]; rfl⟩
  | case5 d cs hd =>
    rw [quotedContent?, if_pos rfl, if_neg hd] at h
    cases h
    exact ⟨d :: cs, rfl⟩
  | case6 c d cs hc ih =>
    rw [quotedContent?, if_neg hc, Option.map_eq_some_iff] at h
    obtain ⟨⟨content, m⟩, hcontent, heq⟩ := h
    cases heq
    obtain ⟨rest, hrest⟩ := ih hcontent
    exact ⟨rest, by rw [doubled, if_neg hc, hrest]; rfl⟩

/-- What stands somewhere begins there in the text itself, if it does not begin with a double
quote. -/
theorem Occurs.text_eq {text front tail : List Char} {contents : List (List Char)} {c : Char}
    (h : Occurs text front contents (c :: tail)) (hc : c ≠ '"') :
    ∃ after, text = front ++ c :: after := by
  generalize htail : c :: tail = cs at h
  induction h with
  | here => exact ⟨tail, by rw [htail]⟩
  | quoted hcontent h ih =>
    obtain ⟨after, rfl⟩ := ih htail
    obtain ⟨rest, rfl⟩ := Read.eq_doubled_of_quotedContent? hcontent
    refine ⟨doubled '"' after ++ '"' :: rest, ?_⟩
    rw [doubled_append, doubled, if_neg hc]
    simp only [List.append_assoc, List.cons_append]

theorem lastLineQuotes_sum_eq_zero {contents : List (List Char)} :
    (contents.map lastLineQuotes).sum = 0 ↔ ∀ content ∈ contents, '"' ∉ lastLine content := by
  induction contents with
  | nil => exact iff_of_true rfl nofun
  | cons content contents ih =>
    rw [List.map_cons, List.sum_cons, Nat.add_eq_zero_iff, ih, List.forall_mem_cons, lastLineQuotes,
      List.count_eq_zero]

/-- A reference in the content of double quotes stands in the text with the quotes. -/
theorem Reference.StandsIn.quoted {r : Reference} {base : Position}
    {before rest content : List Char} {n : Nat}
    (hcontent : Read.quotedContent? '"' rest = some (content, n))
    (h : r.StandsIn content ((base.afterAll before).after '"')) :
    r.StandsIn (before ++ '"' :: rest) base := by
  obtain ⟨front, contents, tail, hoccurs, hhead, hplace⟩ := h
  refine ⟨_, _, tail, .quoted hcontent hoccurs, hhead, ?_⟩
  rw [List.append_cons, Position.afterAll_append, Position.afterAll_concat,
    Position.afterAll_doubled, hplace, List.map_cons, List.sum_cons]
  refine congrArg (Position.mk _) ?_
  dsimp only
  omega

/-! ### Cursors into a text -/

theorem Cursor.position_skip (n : Nat) (cur : Cursor) :
    (cur.skip n).position = cur.position.afterAll (cur.rest.take n) := by
  induction n generalizing cur with
  | zero => rw [List.take_zero]; rfl
  | succ n ih =>
    obtain ⟨rest, position, indent⟩ := cur
    cases rest with
    | nil =>
      have hstay := ih ⟨[], position, indent⟩
      rw [List.take_nil] at hstay ⊢
      exact hstay
    | cons c cs => exact ih _

/-- The cursor is in the text, which begins at `base`. -/
def Cursor.Within (text : List Char) (base : Position) (cur : Cursor) : Prop :=
  ∃ front, text = front ++ cur.rest ∧ cur.position = base.afterAll front

namespace Cursor.Within

variable {text : List Char} {base : Position} {cur : Cursor}

theorem ofChars : (Cursor.ofChars text base).Within text base := ⟨[], rfl, rfl⟩

theorem next (h : cur.Within text base) : cur.next.Within text base := by
  obtain ⟨rest, position, indent⟩ := cur
  cases rest with
  | nil => exact h
  | cons c cs =>
    obtain ⟨front, rfl, rfl⟩ := h
    exact ⟨front ++ [c], List.append_cons front c cs, (base.afterAll_concat front c).symm⟩

theorem skip (h : cur.Within text base) (n : Nat) : (cur.skip n).Within text base := by
  induction n generalizing cur with
  | zero => exact h
  | succ n ih => exact ih h.next

end Cursor.Within

namespace Read

variable {α β : Type} {text : List Char} {base : Position}

/-- What is not read from the text leaves it as it is. -/
theorem lift_eq_ok {x : Except SyntaxError α} {cur cur' : Cursor} {a : α}
    (h : (liftM x : Read α) cur = .ok (a, cur')) : x = .ok a ∧ cur' = cur := by
  cases x with
  | error e => cases h
  | ok a =>
    cases h
    exact ⟨rfl, rfl⟩

theorem quoted_eq_ok {quote : Char} {cur cur' : Cursor} {content : List Char}
    (h : quoted quote cur = .ok (content, cur')) :
    ∃ n, quotedContent? quote cur.rest.tail = some (content, n) := by
  obtain ⟨_, _, ⟨⟩, h⟩ := bind_eq_ok_iff.mp h
  cases hq : quotedContent? quote cur.rest.tail with
  | none =>
    rw [hq] at h
    cases h
  | some p =>
    rw [hq] at h
    cases h
    exact ⟨p.2, rfl⟩

/-- From a cursor into the text the reader goes on in it, and `Q` holds of its result. -/
def Finds (text : List Char) (base : Position) (Q : α → Prop) (x : Read α) : Prop :=
  ∀ cur a cur', cur.Within text base → x cur = .ok (a, cur') → cur'.Within text base ∧ Q a

/-- The reader goes on in the text. -/
abbrev Stays (text : List Char) (base : Position) (x : Read α) : Prop :=
  Finds text base (fun _ => True) x

namespace Finds

variable {P Q : α → Prop} {S : β → Prop}

theorem pure {a : α} (h : Q a) : Finds text base Q (pure a) := by
  rintro cur _ _ hcur ⟨⟩
  exact ⟨hcur, h⟩

theorem bind {x : Read α} {f : α → Read β} (hx : Finds text base P x)
    (hf : ∀ a, P a → Finds text base S (f a)) : Finds text base S (x >>= f) := by
  intro cur b cur'' hcur h
  obtain ⟨a, cur', hxa, hfb⟩ := bind_eq_ok_iff.mp h
  obtain ⟨hcur', ha⟩ := hx cur a cur' hcur hxa
  exact hf a ha cur' b cur'' hcur' hfb

/-- What follows a reader whose result does not matter. -/
theorem seq {x : Read α} {f : α → Read β} (hx : Stays text base x)
    (hf : ∀ a, Finds text base S (f a)) : Finds text base S (x >>= f) :=
  hx.bind fun a _ => hf a

theorem of_fails {x : Read α} (h : ∀ cur a cur', x cur ≠ .ok (a, cur')) :
    Finds text base Q x :=
  fun cur a cur' _ hx => absurd hx (h cur a cur')

theorem failAt (position : Position) (fault : SyntaxFault) :
    Finds text base Q (failAt position fault) :=
  of_fails fun _ _ _ => nofun

theorem fail (fault : SyntaxFault) : Finds text base Q (fail fault) :=
  of_fails fun _ _ _ => nofun

theorem unexpected (expected : Expected) : Finds text base Q (unexpected expected) :=
  of_fails fun _ _ _ => nofun

theorem lift (x : Except SyntaxError α) : Stays text base (liftM x) := by
  intro cur a cur' hcur hx
  exact ⟨(lift_eq_ok hx).2 ▸ hcur, trivial⟩

theorem ite {c : Prop} [Decidable c] {x y : Read α} (hx : Finds text base Q x)
    (hy : Finds text base Q y) : Finds text base Q (if c then x else y) := by
  split
  · exact hx
  · exact hy

theorem get : Stays text base get := by
  rintro cur _ _ hcur ⟨⟩
  exact ⟨hcur, trivial⟩

theorem here : Stays text base here := by
  rintro cur _ _ hcur ⟨⟩
  exact ⟨hcur, trivial⟩

theorem rest : Stays text base rest := by
  rintro cur _ _ hcur ⟨⟩
  exact ⟨hcur, trivial⟩

theorem peek? : Stays text base peek? := by
  rintro cur _ _ hcur ⟨⟩
  exact ⟨hcur, trivial⟩

/-- What follows a look at the next character may rely on it. -/
theorem peek?_bind {f : Option Char → Read β}
    (hf : ∀ c? cur b cur', cur.Within text base → cur.rest.head? = c? →
      f c? cur = .ok (b, cur') → cur'.Within text base ∧ S b) :
    Finds text base S (Read.peek? >>= f) := by
  intro cur b cur' hcur h
  obtain ⟨_, _, ⟨⟩, h⟩ := bind_eq_ok_iff.mp h
  exact hf _ cur b cur' hcur rfl h

theorem skip (n : Nat) : Stays text base (skip n) := by
  rintro cur _ _ hcur ⟨⟩
  exact ⟨hcur.skip n, trivial⟩

theorem takeWhile (p : Char → Bool) : Stays text base (takeWhile p) := by
  rintro cur _ _ hcur ⟨⟩
  exact ⟨hcur.skip _, trivial⟩

theorem skipWhile (p : Char → Bool) : Stays text base (skipWhile p) := by
  rintro cur _ _ hcur ⟨⟩
  exact ⟨hcur.skip _, trivial⟩

/-! ### Tokens -/

theorem char (c : Char) (expected : Expected) : Stays text base (char c expected) :=
  peek?.seq fun _ => .ite (skip 1) (unexpected expected)

theorem sign (token : List Char) : Stays text base (sign token) :=
  rest.seq fun _ => .ite ((skip token.length).seq fun _ => pure trivial) (pure trivial)

theorem wholeWord (word : List Char) : Stays text base (wholeWord word) :=
  rest.seq fun _ => .ite ((skip word.length).seq fun _ => pure trivial) (pure trivial)

theorem name : Finds text base IsWord name := by
  rintro cur _ _ hcur ⟨⟩
  refine ⟨hcur.skip _, fun c hc => ?_⟩
  rw [String.toList_ofList] at hc
  exact List.all_eq_true.mp List.all_takeWhile c hc

theorem quoted (quote : Char) : Stays text base (quoted quote) := by
  refine rest.seq fun cs => ?_
  cases quotedContent? quote cs.tail with
  | some p => exact (skip _).seq fun _ => pure trivial
  | none => exact fail _

theorem itemsAfter {item : Read α} (h : Finds text base Q item) (close : Char)
    (expected : Expected) : (limit : Nat) →
      Finds text base (fun as => ∀ a ∈ as, Q a) (itemsAfter item close expected limit)
  | 0 => unexpected expected
  | limit + 1 => by
      refine (skipWhile isExprBlank).seq fun _ => peek?.seq fun c? => ?_
      cases c? with
      | none => exact unexpected expected
      | some c =>
        refine .ite ((skip 1).seq fun _ => h.bind fun a ha => ?_)
          (.ite ((skip 1).seq fun _ => pure nofun) (unexpected expected))
        exact (itemsAfter h close expected limit).bind fun as has =>
          pure (List.forall_mem_cons.mpr ⟨ha, has⟩)

theorem items {item : Read α} (h : Finds text base Q item) (close : Char) (expected : Expected)
    (limit : Nat) :
    Finds text base (fun as => ∀ a ∈ as, Q a) (items item close expected limit) := by
  refine (skipWhile isExprBlank).seq fun _ => peek?.seq fun c? => .ite ?_ (h.bind fun a ha => ?_)
  · exact (skip 1).seq fun _ => pure nofun
  · exact (itemsAfter h close expected limit).bind fun as has =>
      pure (List.forall_mem_cons.mpr ⟨ha, has⟩)

end Finds
end Read

end GatewayMapping.Template
