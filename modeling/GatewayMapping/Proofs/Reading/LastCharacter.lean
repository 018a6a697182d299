import GatewayMapping.Proofs.Printing.Operators
import GatewayMapping.Proofs.Reading.Directives
import GatewayMapping.Proofs.Text.Occurrences

/-!
# The last character that a reader takes

References and the heads of directives end with a name, a bracket or a brace, so the last character
that is taken for them is no white space. A construct that stands alone on its line takes the end of
the line as well. In either case blanks are taken last at the end of the text only; everywhere else
a block takes each blank by itself, as a character of text (`Grammar.step_unblank`).

## Main definitions

* `Cursor.Passes`: the last character between two cursors.
* `Cursor.EndsSolid`, `Cursor.EndsUnblank`: it is no white space, or no blank.

## Main results

* `Grammar.step_unblank`: what a part of a block takes last.
-/

namespace GatewayMapping.Template

variable {α β : Type}

/-! ### The last character between cursors -/

/-- The last character between the cursors is `c`. -/
def Cursor.Passes (c : Char) (cur cur' : Cursor) : Prop :=
  ∃ front indent, cur.rest = front ++ c :: cur'.rest ∧ cur'.indent = indentAfter indent c

/-- The last character between the cursors is no white space. -/
def Cursor.EndsSolid (cur cur' : Cursor) : Prop :=
  ∃ c, isExprBlank c = false ∧ cur.Passes c cur'

/-- The last character between the cursors is no blank, or the text ends with it. -/
def Cursor.EndsUnblank (cur cur' : Cursor) : Prop :=
  cur'.rest = [] ∨ ∃ c, isInlineBlank c = false ∧ cur.Passes c cur'

namespace Cursor

variable {cur cur₁ cur' : Cursor} {c : Char}

theorem Passes.of_suffix (h : cur₁.Passes c cur') (hcur : cur₁.rest <:+ cur.rest) :
    cur.Passes c cur' := by
  obtain ⟨front, indent, hrest, hindent⟩ := h
  obtain ⟨before, hbefore⟩ := hcur
  exact ⟨before ++ front, indent, by rw [← hbefore, hrest, List.append_assoc], hindent⟩

theorem EndsSolid.of_suffix (h : cur₁.EndsSolid cur') (hcur : cur₁.rest <:+ cur.rest) :
    cur.EndsSolid cur' := by
  obtain ⟨c, hc, hpasses⟩ := h
  exact ⟨c, hc, hpasses.of_suffix hcur⟩

theorem EndsUnblank.of_suffix (h : cur₁.EndsUnblank cur') (hcur : cur₁.rest <:+ cur.rest) :
    cur.EndsUnblank cur' :=
  h.imp_right fun ⟨c, hc, hpasses⟩ => ⟨c, hc, hpasses.of_suffix hcur⟩

theorem EndsUnblank.suffix (h : cur.EndsUnblank cur') : cur'.rest <:+ cur.rest := by
  obtain hnil | ⟨c, -, front, -, hrest, -⟩ := h
  · rw [hnil]
    exact List.nil_suffix
  · exact ⟨front ++ [c], by rw [hrest, List.append_assoc]; rfl⟩

/-- What follows takes nothing, or no blank last. -/
theorem EndsUnblank.trans (h : cur.EndsUnblank cur₁) (h' : cur' = cur₁ ∨ cur₁.EndsUnblank cur') :
    cur.EndsUnblank cur' := by
  obtain rfl | h' := h'
  · exact h
  · exact h'.of_suffix h.suffix

theorem isInlineBlank_of_not_isExprBlank (h : isExprBlank c = false) : isInlineBlank c = false := by
  simp only [isExprBlank, Bool.or_eq_false_iff] at h
  rw [isInlineBlank, h.1.1.1, h.1.1.2]
  rfl

theorem EndsSolid.unblank (h : cur.EndsSolid cur') : cur.EndsUnblank cur' := by
  obtain ⟨c, hc, hpasses⟩ := h
  exact .inr ⟨c, isInlineBlank_of_not_isExprBlank hc, hpasses⟩

theorem Passes.indent (h : cur.Passes '\n' cur') : cur'.indent = some 0 := by
  obtain ⟨_, _, -, hindent⟩ := h
  exact hindent

theorem EndsSolid.indent (h : cur.EndsSolid cur') : cur'.indent = none := by
  obtain ⟨c, hc, _, _, -, hindent⟩ := h
  have hline : c ≠ '\n' := by
    rintro rfl
    cases hc
  rw [hindent, indentAfter, if_neg hline, isInlineBlank_of_not_isExprBlank hc]
  rfl

/-- Each blank adds to an indentation. -/
theorem indent_skip_blanks {blanks back : List Char}
    (hblanks : ∀ c ∈ blanks, isInlineBlank c = true) (hcur : cur.rest = blanks ++ back) :
    (cur.skip blanks.length).indent = cur.indent.map (· + blanks.length) := by
  induction blanks generalizing cur with
  | nil =>
    cases hindent : cur.indent <;> exact hindent
  | cons c blanks ih =>
    have hc := hblanks c List.mem_cons_self
    have hline : c ≠ '\n' := by
      rintro rfl
      cases hc
    have hnext : cur.next.indent = cur.indent.map (· + 1) := by
      obtain ⟨rest, position, indent⟩ := cur
      obtain rfl : rest = _ := hcur
      change indentAfter indent c = _
      rw [indentAfter, if_neg hline, if_pos hc]
    rw [List.length_cons, skip, ih (fun c hc => hblanks c (List.mem_cons_of_mem _ hc))
      (by rw [rest_next, hcur]; rfl), hnext, Option.map_map]
    refine congrArg (cur.indent.map ·) (funext fun n => ?_)
    simp only [Function.comp_apply]
    omega

theorem passes_next {rest : List Char} (h : cur.rest = c :: rest) : cur.Passes c cur.next := by
  obtain ⟨_, position, indent⟩ := cur
  obtain rfl : _ = c :: rest := h
  exact ⟨[], indent, rfl, rfl⟩

theorem passes_skip {front back : List Char} (h : cur.rest = front ++ c :: back) :
    cur.Passes c (cur.skip (front.length + 1)) := by
  induction front generalizing cur with
  | nil => exact passes_next h
  | cons d front ih =>
    have hnext : cur.next.rest = front ++ c :: back := by rw [rest_next, h]; rfl
    refine (ih hnext).of_suffix ?_
    rw [rest_next]
    exact List.tail_suffix cur.rest

theorem skip_skip (n m : Nat) : (cur.skip n).skip m = cur.skip (n + m) := by
  induction n generalizing cur with
  | zero => rw [Nat.zero_add]; rfl
  | succ n ih => rw [Nat.succ_add]; exact ih

theorem passes_skip_of_drop {n : Nat} {front back : List Char}
    (h : cur.rest.drop n = front ++ c :: back) :
    cur.Passes c (cur.skip (n + (front.length + 1))) := by
  rw [← rest_skip] at h
  rw [← skip_skip]
  refine (passes_skip h).of_suffix ?_
  rw [rest_skip]
  exact List.drop_suffix n cur.rest

/-- The last character of a text that is found, after the text. -/
theorem passes_found (front : List Char) {k n : Nat}
    (h : Text.indexOf? (front ++ [c]) (cur.rest.drop k) = some n) :
    cur.Passes c (cur.skip (k + n + (front.length + 1))) := by
  obtain ⟨back, hback⟩ := (Text.indexOf?_eq_some_iff.mp h).1
  rw [List.drop_drop, List.append_assoc] at hback
  exact passes_skip_of_drop hback.symm

theorem exists_passes_skip {n : Nat} (hn : n < cur.rest.length) :
    ∃ c ∈ cur.rest.take (n + 1), cur.Passes c (cur.skip (n + 1)) := by
  have hsplit : cur.rest = cur.rest.take n ++ cur.rest[n] :: cur.rest.drop (n + 1) := by
    rw [← List.drop_eq_getElem_cons hn, List.take_append_drop]
  have hpasses := passes_skip hsplit
  rw [List.length_take, Nat.min_eq_left (Nat.le_of_lt hn)] at hpasses
  exact ⟨_, List.mem_take_iff_getElem.mpr ⟨n, by omega, rfl⟩, hpasses⟩

theorem exists_passes_skipWhile {p : Char → Bool} {rest : List Char} (h : cur.rest = c :: rest)
    (hc : p c) : ∃ c, p c ∧ cur.Passes c (cur.skipWhile p) := by
  have htake : cur.rest.takeWhile p = c :: rest.takeWhile p := by
    rw [h, List.takeWhile_cons_of_pos hc]
  have heq := List.prefix_iff_eq_take.mp (List.takeWhile_prefix p (l := cur.rest))
  have hle := (List.takeWhile_prefix p (l := cur.rest)).length_le
  rw [htake, List.length_cons] at heq hle
  obtain ⟨d, hd, hpasses⟩ := exists_passes_skip hle
  rw [← heq, ← htake] at hd
  rw [skipWhile, htake]
  exact ⟨d, List.all_eq_true.mp List.all_takeWhile d hd, hpasses⟩

end Cursor

/-! ### Ends of lines -/

/-- The end of a line before `back`: a line feed, which a carriage return may precede, or the end of
the text. -/
def IsLineEnd (lineEnd back : List Char) : Prop :=
  lineEnd = ['\n'] ∨ lineEnd = ['\r', '\n'] ∨ lineEnd = [] ∧ back = []

/-- Blanks and the end of a line are found where they stand, and their number with them. -/
theorem blankLineEnd?_eq_some_iff {cs : List Char} {n : Nat} :
    blankLineEnd? cs = some n ↔ ∃ blanks lineEnd back, cs = blanks ++ (lineEnd ++ back) ∧
      (∀ c ∈ blanks, isInlineBlank c = true) ∧ IsLineEnd lineEnd back ∧
      n = blanks.length + lineEnd.length := by
  constructor
  · intro h
    rw [blankLineEnd?] at h
    have hblanks : ∀ c ∈ cs.takeWhile isInlineBlank, isInlineBlank c = true :=
      fun c hc => List.all_eq_true.mp List.all_takeWhile c hc
    have hsplit := List.takeWhile_append_dropWhile (p := isInlineBlank) (l := cs)
    split at h
    · next hrest =>
      cases h
      rw [hrest] at hsplit
      exact ⟨_, [], [], hsplit.symm, hblanks, .inr (.inr ⟨rfl, rfl⟩), rfl⟩
    · next back hrest =>
      cases h
      rw [hrest] at hsplit
      exact ⟨_, ['\n'], back, hsplit.symm, hblanks, .inl rfl, rfl⟩
    · next back hrest =>
      cases h
      rw [hrest] at hsplit
      exact ⟨_, ['\r', '\n'], back, hsplit.symm, hblanks, .inr (.inl rfl), rfl⟩
    · cases h
  · rintro ⟨blanks, lineEnd, back, rfl, hblanks, hend, rfl⟩
    have hhead : (lineEnd ++ back).takeWhile isInlineBlank = [] := by
      obtain rfl | rfl | ⟨rfl, rfl⟩ := hend <;> rfl
    have htake : (blanks ++ (lineEnd ++ back)).takeWhile isInlineBlank = blanks := by
      rw [List.takeWhile_append_of_pos hblanks, hhead, List.append_nil]
    have hdrop : (blanks ++ (lineEnd ++ back)).dropWhile isInlineBlank = lineEnd ++ back := by
      have hsplit := List.takeWhile_append_dropWhile (p := isInlineBlank)
        (l := blanks ++ (lineEnd ++ back))
      rw [htake] at hsplit
      exact List.append_cancel_left hsplit
    rw [blankLineEnd?, htake, hdrop]
    obtain rfl | rfl | ⟨rfl, rfl⟩ := hend <;> rfl

namespace Read

/-! ### Readers that end with something else than white space -/

/-- The reader takes something, and no white space last. -/
def Solid (r : Read α) : Prop := ∀ cur a cur', r cur = .ok (a, cur') → cur.EndsSolid cur'

/-- The reader takes nothing, or no white space last. -/
def SolidIfAny (r : Read α) : Prop :=
  ∀ cur a cur', r cur = .ok (a, cur') → cur' = cur ∨ cur.EndsSolid cur'

namespace Solid

theorem of_fails {r : Read α} (h : ∀ cur a cur', r cur ≠ .ok (a, cur')) : Solid r :=
  fun cur a cur' hr => absurd hr (h cur a cur')

theorem unexpected (expected : Expected) : Solid (unexpected expected : Read α) :=
  of_fails fun _ _ _ => nofun

theorem failAt (position : Position) (fault : SyntaxFault) :
    Solid (failAt position fault : Read α) :=
  of_fails fun _ _ _ => nofun

theorem ite {c : Prop} [Decidable c] {x y : Read α} (hx : Solid x) (hy : Solid y) :
    Solid (if c then x else y) := by
  split
  · exact hx
  · exact hy

theorem bind {x : Read α} {f : α → Read β} (hx : Shrinks x) (hf : ∀ a, Solid (f a)) :
    Solid (x >>= f) := by
  intro cur b cur'' h
  obtain ⟨a, cur', hxa, hfb⟩ := bind_eq_ok_iff.mp h
  exact (hf a cur' b cur'' hfb).of_suffix (hx cur a cur' hxa)

theorem bind_left {x : Read α} {f : α → Read β} (hx : Solid x) (hs : Shrinks x)
    (hf : ∀ a, SolidIfAny (f a)) : Solid (x >>= f) := by
  intro cur b cur'' h
  obtain ⟨a, cur', hxa, hfb⟩ := bind_eq_ok_iff.mp h
  obtain rfl | hsolid := hf a cur' b cur'' hfb
  · exact hx cur a _ hxa
  · exact hsolid.of_suffix (hs cur a cur' hxa)

theorem map {x : Read α} (hx : Solid x) (g : α → β) :
    Solid (x >>= fun a => (Pure.pure (g a) : Read β)) := by
  intro cur b cur'' h
  obtain ⟨a, cur', hxa, ⟨⟩⟩ := bind_eq_ok_iff.mp h
  exact hx cur a _ hxa

theorem char {c : Char} (hc : isExprBlank c = false) (expected : Expected) :
    Solid (char c expected) := by
  intro cur _ cur' h
  obtain ⟨_, _, ⟨⟩, h⟩ := bind_eq_ok_iff.mp h
  split at h
  · next hhead =>
    cases h
    obtain ⟨rest, hrest⟩ := List.head?_eq_some_iff.mp hhead
    exact ⟨c, hc, Cursor.passes_next hrest⟩
  · cases h

theorem itemsAfter {item : Read α} (hs : Shrinks item) {close : Char}
    (hclose : isExprBlank close = false) (expected : Expected) :
    (limit : Nat) → Solid (itemsAfter item close expected limit)
  | 0 => unexpected expected
  | limit + 1 => by
      refine bind (.skipWhile _) fun _ => ?_
      intro cur as cur' h
      obtain ⟨_, _, ⟨⟩, h⟩ := bind_eq_ok_iff.mp h
      cases hrest : cur.rest with
      | nil =>
        rw [hrest] at h
        cases h
      | cons c rest =>
        rw [hrest] at h
        dsimp only [List.head?_cons] at h
        split at h
        · exact bind (.skip 1) (fun _ => bind hs fun x =>
            (itemsAfter hs hclose expected limit).map (x :: ·)) cur as cur' h
        · split at h
          · next hc =>
            cases h
            exact ⟨c, hc ▸ hclose, Cursor.passes_next hrest⟩
          · cases h

theorem items {item : Read α} (hs : Shrinks item) {close : Char}
    (hclose : isExprBlank close = false) (expected : Expected) (limit : Nat) :
    Solid (items item close expected limit) := by
  refine bind (.skipWhile _) fun _ => ?_
  intro cur as cur' h
  obtain ⟨_, _, ⟨⟩, h⟩ := bind_eq_ok_iff.mp h
  split at h
  · next hhead =>
    cases h
    obtain ⟨rest, hrest⟩ := List.head?_eq_some_iff.mp hhead
    exact ⟨close, hclose, Cursor.passes_next hrest⟩
  · exact bind hs (fun x => (itemsAfter hs hclose expected limit).map (x :: ·)) cur as cur' h

end Solid

/-- A name that begins here ends with a character of a name. -/
theorem endsSolid_name {c : Char} {rest : List Char} {cur cur' : Cursor} {s : String}
    (hrest : cur.rest = c :: rest) (hc : isNameStart c = true) (h : name cur = .ok (s, cur')) :
    cur.EndsSolid cur' := by
  have hname : isNameChar c = true := by
    rw [isNameStart, Bool.or_eq_true] at hc
    rw [isNameChar, Bool.or_eq_true]
    exact hc.imp_left fun h => by rw [Char.isAlphanum, h]; rfl
  cases h
  obtain ⟨d, hd, hpasses⟩ := Cursor.exists_passes_skipWhile hrest hname
  refine ⟨d, Bool.eq_false_iff.mpr fun hblank => ?_, hpasses⟩
  rw [Grammar.not_isNameChar_of_blank hblank] at hd
  cases hd

end Read

namespace Grammar

open Read (Solid SolidIfAny Shrinks bind_eq_ok_iff)

section

variable {inner : Inner} (h : inner.Shrinks)
include h

/-- Each segment ends with a name or a bracket, so what is read after it may be nothing. -/
theorem segments_solid : (limit : Nat) → SolidIfAny (segments inner limit)
  | 0 => by
      rintro cur _ _ ⟨⟩
      exact .inl rfl
  | limit + 1 => by
      have hmore (s : Segment) :
          SolidIfAny (return s :: (← segments inner limit) : Read (List Segment)) := by
        intro cur _ cur' hr
        obtain ⟨_, _, hsegments, ⟨⟩⟩ := bind_eq_ok_iff.mp hr
        exact segments_solid limit cur _ cur' hsegments
      intro cur ss cur' hr
      obtain ⟨_, _, ⟨⟩, hr⟩ := bind_eq_ok_iff.mp hr
      generalize hrest : cur.rest = cs at hr
      split at hr
      · next c rest =>
        split at hr
        · next hc =>
          obtain ⟨_, cur₁, hskip, hr⟩ := bind_eq_ok_iff.mp hr
          obtain ⟨member, cur₂, hname, hr⟩ := bind_eq_ok_iff.mp hr
          obtain ⟨_, _, ⟨⟩, hr⟩ := bind_eq_ok_iff.mp hr
          have hrest₁ : cur₁.rest = c :: rest := by
            cases hskip
            rw [Cursor.rest_skip, hrest]
            rfl
          have hnamed := (Read.endsSolid_name hrest₁ hc hname).of_suffix
            (Shrinks.skip 1 _ _ _ hskip)
          split at hr
          · have hsolid := Solid.bind (.skip 1) (fun _ => (Solid.items h.expr rfl .argument
              inner.limit).bind_left (.items h.expr _ _ _) fun args => hmore (.method member args))
              cur₂ ss cur' hr
            refine .inr (hsolid.of_suffix ?_)
            exact (Shrinks.name _ _ _ hname).trans (Shrinks.skip 1 _ _ _ hskip)
          · obtain rfl | hsolid := hmore _ cur₂ ss cur' hr
            · exact .inr hnamed
            · refine .inr (hsolid.of_suffix ?_)
              exact (Shrinks.name _ _ _ hname).trans (Shrinks.skip 1 _ _ _ hskip)
        · cases hr
          exact .inl rfl
      · exact .inr (Solid.bind (.skip 1) (fun _ => Solid.bind h.expr fun _ =>
          Solid.bind (.skipWhile _) fun _ => (Solid.char rfl _).bind_left (.char _ _)
            fun _ => hmore _) cur ss cur' hr)
      · cases hr
        exact .inl rfl

omit h in
/-- A name follows the beginning of a reference. -/
theorem exists_drop_sigil {cs : List Char} {s : Sigil} (hs : sigil? cs = some s) :
    ∃ c rest, (('$' :: cs).drop s.length) = c :: rest ∧ isNameStart c = true := by
  have hskip : ∀ (c : Char) (cs : List Char),
      (if cs.head? = some c then cs.tail else cs) = cs.drop (decide (cs.head? = some c)).toNat := by
    intro c cs
    by_cases hc : cs.head? = some c
    · rw [if_pos hc, decide_eq_true hc, Bool.toNat_true, List.drop_one]
    · rw [if_neg hc, decide_eq_false hc, Bool.toNat_false, List.drop_zero]
  obtain ⟨hname, hs⟩ := Option.ite_none_right_eq_some.mp hs
  cases hs
  simp only [Sigil.length, Nat.add_assoc, hskip, List.drop_drop] at hname ⊢
  rw [Nat.add_comm, List.drop_succ_cons]
  generalize cs.drop _ = name at hname ⊢
  cases name with
  | nil => cases hname
  | cons c rest => exact ⟨c, rest, rfl, hname⟩

/-- A reference ends with its last name, bracket or brace. -/
theorem referenceAfter_solid {s : Sigil} {cur cur' : Cursor} {c : Char} {rest : List Char}
    (hrest : cur.rest.drop s.length = c :: rest) (hc : isNameStart c = true) {r : Reference}
    (hr : referenceAfter inner s cur = .ok (r, cur')) : cur.EndsSolid cur' := by
  obtain ⟨_, _, ⟨⟩, hr⟩ := bind_eq_ok_iff.mp hr
  obtain ⟨_, cur₁, hskip, hr⟩ := bind_eq_ok_iff.mp hr
  obtain ⟨name, cur₂, hname, hr⟩ := bind_eq_ok_iff.mp hr
  obtain ⟨path, cur₃, hpath, hr⟩ := bind_eq_ok_iff.mp hr
  have hrest₁ : cur₁.rest = c :: rest := by
    cases hskip
    rw [Cursor.rest_skip, hrest]
  have hcur₂ := (Shrinks.name _ _ _ hname).trans (Shrinks.skip _ _ _ _ hskip)
  have hnamed : cur.EndsSolid cur₃ := by
    obtain rfl | hsolid := segments_solid h _ _ _ _ hpath
    · exact (Read.endsSolid_name hrest₁ hc hname).of_suffix (Shrinks.skip _ _ _ _ hskip)
    · exact hsolid.of_suffix hcur₂
  split at hr
  · obtain ⟨_, cur₄, hchar, ⟨⟩⟩ := bind_eq_ok_iff.mp hr
    exact (Solid.char rfl _ _ _ _ hchar).of_suffix
      ((segments_shrinks h _ _ _ _ hpath).trans hcur₂)
  · cases hr
    exact hnamed

theorem reference?_solid {cur cur' : Cursor} {tail : List Char} (hcur : cur.rest = '$' :: tail)
    {r : Reference} (hr : reference? inner cur = .ok (some r, cur')) : cur.EndsSolid cur' := by
  obtain ⟨_, _, ⟨⟩, hr⟩ := bind_eq_ok_iff.mp hr
  rw [hcur, List.tail_cons] at hr
  cases hsigil : sigil? tail with
  | none =>
    rw [hsigil] at hr
    cases hr
  | some s =>
    rw [hsigil] at hr
    obtain ⟨_, _, hr, ⟨⟩⟩ := bind_eq_ok_iff.mp hr
    obtain ⟨c, rest, hdrop, hc⟩ := exists_drop_sigil hsigil
    exact referenceAfter_solid h (by rw [hcur, hdrop]) hc hr

/-! ### Heads of directives -/

omit h in
theorem closeParen_solid : Solid closeParen := .bind (.skipWhile _) fun _ => .char rfl _

theorem argument_solid (word : Directive) : Solid (argument inner word) :=
  .bind (openParen_shrinks word) fun _ => .bind h.expr fun e => closeParen_solid.map fun _ => e

theorem assignment_solid : Solid (assignment inner) := by
  refine .bind (openParen_shrinks _) fun _ => .bind (.skipWhile _) fun _ =>
    .bind (reference_shrinks h) fun target => .bind (.skipWhile _) fun _ => .bind .rest fun cs => ?_
  split
  · exact .unexpected _
  · exact .bind (.skip 1) fun _ => .bind h.expr fun value =>
      closeParen_solid.map fun _ => (target, value)
  · exact .unexpected _

theorem loopHead_solid : Solid (loopHead inner) := by
  refine .bind (openParen_shrinks _) fun _ => .bind (.skipWhile _) fun _ =>
    .bind (reference_shrinks h) fun r => .ite ?_ (.failAt _ _)
  exact .bind (.skipWhile _) fun _ => .bind (.wholeWord _) fun _ =>
    .ite (.bind h.expr fun items => closeParen_solid.map fun _ => (r.name, items)) (.unexpected _)

omit h in
/-- The word of a directive with its `#` holds no white space. -/
theorem word_solid {cs : List Char} {word : Directive} {n : Nat}
    (hword : directive? cs = some (word, n)) :
    n < ('#' :: cs).length ∧ ∀ c ∈ ('#' :: cs).take (n + 1), isExprBlank c = false := by
  have hall : word.word.all (!isExprBlank ·) = true := by cases word <;> rfl
  have hletters : ∀ c ∈ word.word, isExprBlank c = false := by
    simpa only [List.all_eq_true, Bool.not_eq_true'] using hall
  obtain ⟨rest, rfl, rfl, -⟩ | ⟨rest, rfl, rfl⟩ := directive?_eq_some_iff.mp hword
  · rw [List.take_succ_cons, List.take_left]
    refine ⟨?_, List.forall_mem_cons.mpr ⟨rfl, hletters⟩⟩
    rw [List.length_cons, List.length_append]
    omega
  · have htake : (word.word ++ '\x7d' :: rest).take (word.word.length + 1) =
        word.word ++ ['\x7d'] := by
      rw [List.append_cons]
      exact List.take_left' (List.length_append ..)
    rw [List.take_succ_cons, List.take_succ_cons, htake]
    refine ⟨?_, List.forall_mem_cons.mpr ⟨rfl, List.forall_mem_cons.mpr ⟨rfl, fun c hc => ?_⟩⟩⟩
    · simp only [List.length_cons, List.length_append]
      omega
    · obtain hc | hc := List.mem_append.mp hc
      · exact hletters c hc
      · rw [List.mem_singleton.mp hc]
        rfl

/-- The head of a directive ends with its word or with a parenthesis. -/
theorem head_solid {cur cur' : Cursor} {cs : List Char} {word : Directive} {n : Nat}
    (hcur : cur.rest = '#' :: cs) (hword : directive? cs = some (word, n)) {p : Head word}
    (hr : head inner word (cur.skip (n + 1)) = .ok (p, cur')) : cur.EndsSolid cur' := by
  have hwhole : cur.EndsSolid (cur.skip (n + 1)) := by
    obtain ⟨hlength, hsolid⟩ := word_solid hword
    rw [← hcur] at hlength hsolid
    obtain ⟨c, hc, hpasses⟩ := Cursor.exists_passes_skip hlength
    exact ⟨c, hsolid c hc, hpasses⟩
  have hargument {x : Read (Head word)} (hx : Solid x)
      (hr : x (cur.skip (n + 1)) = .ok (p, cur')) : cur.EndsSolid cur' :=
    (hx _ _ _ hr).of_suffix (Shrinks.skip (n + 1) cur () _ rfl)
  cases word with
  | assign => exact hargument (assignment_solid h) hr
  | forEach => exact hargument (loopHead_solid h) hr
  | ifThen | elseIf | parse | insert => exact hargument (argument_solid h _) hr
  | otherwise | finish | leave | stop =>
    cases hr
    exact hwhole

/-! ### Parts of blocks -/

omit h in
theorem comment_solid {cur : Cursor} {n : Nat}
    (hfound : Text.indexOf? ['*', '#'] (cur.rest.drop 2) = some n) :
    cur.EndsSolid (cur.skip (n + 4)) := by
  have hpasses := Cursor.passes_found ['*'] hfound
  rw [Nat.add_comm 2 n] at hpasses
  exact ⟨'#', rfl, hpasses⟩

omit h in
theorem verbatim_solid {cur : Cursor} {n : Nat}
    (hfound : Text.indexOf? [']', ']', '#'] (cur.rest.drop 3) = some n) :
    cur.EndsSolid (cur.skip (n + 6)) := by
  have hpasses := Cursor.passes_found [']', ']'] hfound
  rw [Nat.add_comm 3 n] at hpasses
  exact ⟨'#', rfl, hpasses⟩

omit h in
/-- An escape ends with a backslash or with the mark that it stands before. -/
theorem escape_solid {d d' : Draft} {cur cur' : Cursor} {cs : List Char}
    (hcur : cur.rest = '\\' :: cs) (hr : escape d cur = .ok (d', cur')) : cur.EndsSolid cur' := by
  obtain ⟨slashes, cur₁, hslashes, hr⟩ := bind_eq_ok_iff.mp hr
  obtain ⟨_, _, ⟨⟩, hr⟩ := bind_eq_ok_iff.mp hr
  have hcur₁ := Shrinks.takeWhile _ _ _ _ hslashes
  have hsolid : cur.EndsSolid cur₁ := by
    cases hslashes
    obtain ⟨c, hc, hpasses⟩ := Cursor.exists_passes_skipWhile (p := (· = '\\')) hcur rfl
    obtain rfl : c = '\\' := of_decide_eq_true hc
    exact ⟨'\\', rfl, hpasses⟩
  cases hrest : cur₁.rest with
  | nil =>
    rw [hrest] at hr
    cases hr
    exact hsolid
  | cons c rest =>
    rw [hrest] at hr
    dsimp only [List.head?_cons] at hr
    split at hr
    · next hmark =>
      rw [Bool.or_eq_true, decide_eq_true_eq, decide_eq_true_eq] at hmark
      split at hr
      · obtain ⟨_, _, ⟨⟩, ⟨⟩⟩ := bind_eq_ok_iff.mp hr
        have hsolid : cur₁.EndsSolid (cur₁.skip 1) := by
          refine ⟨c, ?_, Cursor.passes_next hrest⟩
          obtain rfl | rfl := hmark <;> rfl
        exact hsolid.of_suffix hcur₁
      · cases hr
        exact hsolid
    · cases hr
      exact hsolid

omit h in
/-- A comment to the end of its line takes the line feed, if there is one. -/
theorem lineComment_unblank {d d' : Draft} {cur cur' : Cursor}
    (hr : lineComment d cur = .ok (d', cur')) : cur.EndsUnblank cur' := by
  obtain ⟨_, _, ⟨⟩, hr⟩ := bind_eq_ok_iff.mp hr
  obtain ⟨_, cur₁, hskip, hr⟩ := bind_eq_ok_iff.mp hr
  obtain ⟨_, cur₂, ⟨⟩, ⟨⟩⟩ := bind_eq_ok_iff.mp hr
  have hcur₁ := Shrinks.skipWhile _ _ _ _ hskip
  have hhead := List.head?_dropWhile_not (fun c : Char => decide (c ≠ '\n')) cur.rest
  cases hskip
  rw [← Cursor.rest_skipWhile] at hhead
  cases hrest : (cur.skipWhile (· ≠ '\n')).rest with
  | nil =>
    refine .inl ?_
    rw [Cursor.rest_skip, hrest]
    rfl
  | cons c rest =>
    rw [hrest] at hhead
    obtain rfl : c = '\n' := by simpa using hhead
    exact .inr ⟨'\n', rfl, (Cursor.passes_next hrest).of_suffix hcur₁⟩

omit h in
/-- A line that goes with its construct ends with a line feed or with the text. -/
theorem gobble_unblank {indent : Option Nat} {d d' : Draft} {cur cur' : Cursor}
    (hr : Read.gobble indent d cur = .ok (d', cur')) : cur' = cur ∨ cur.EndsUnblank cur' := by
  obtain ⟨n, count, rfl, hcount, -, rfl⟩ | ⟨-, -, rfl⟩ := gobble_eq_ok_iff.mp hr
  · obtain ⟨blanks, lineEnd, back, hrest, -, hend, rfl⟩ := blankLineEnd?_eq_some_iff.mp hcount
    refine .inr ?_
    have hlast {front : List Char} (hline : blanks ++ lineEnd = front ++ ['\n']) :
        cur.EndsUnblank (cur.skip (blanks.length + lineEnd.length)) := by
      have hsplit : cur.rest = front ++ '\n' :: back := by
        rw [hrest, ← List.append_assoc, hline, List.append_assoc]
        rfl
      have hpasses := Cursor.passes_skip hsplit
      have hlength := congrArg List.length hline
      rw [List.length_append, List.length_append, List.length_singleton] at hlength
      rw [hlength]
      exact .inr ⟨'\n', rfl, hpasses⟩
    obtain rfl | rfl | ⟨rfl, rfl⟩ := hend
    · exact hlast rfl
    · exact hlast (List.append_assoc blanks ['\r'] ['\n']).symm
    · refine .inl ?_
      rw [Cursor.rest_skip, hrest, List.append_nil, List.append_nil]
      exact List.drop_length
  · exact .inl rfl

theorem directiveAt_unblank {d d' : Draft} {cur cur' : Cursor} {word : Directive} {p : Head word}
    (hr : DirectiveAt inner d cur word p d' cur') : cur.EndsUnblank cur' := by
  obtain ⟨cs, n, cur₁, hcur, hword, hhead, hgobble⟩ := hr
  exact (head_solid h hcur hword hhead).unblank.trans (gobble_unblank hgobble)

section

variable (hblock : ∀ cur b cur', inner.block cur = .ok (b, cur') → b.ending ≠ .endOfText →
  cur.EndsUnblank cur')
include hblock

omit h in
theorem afterLastBody_unblank {opened : Position} {condition : Expr} {body : List Node}
    {cur cur' : Cursor} {x : List (Expr × List Node) × Option (List Node)}
    (hr : (inner.block >>= afterLastBody opened condition body) cur = .ok (x, cur')) :
    cur.EndsUnblank cur' := by
  obtain ⟨⟨nodes, ending⟩, cur₁, hbody, hr⟩ := bind_eq_ok_iff.mp hr
  cases ending with
  | finish position =>
    cases hr
    exact hblock _ _ _ hbody nofun
  | _ => cases hr

/-- A condition ends with the `#end` of its last body. -/
theorem branches_unblank {opened : Position} : (limit : Nat) → {condition : Expr} →
    {cur cur' : Cursor} → {x : List (Expr × List Node) × Option (List Node)} →
      branches inner opened limit condition cur = .ok (x, cur') → cur.EndsUnblank cur'
  | 0, _, _, _, _, hr => nomatch hr
  | limit + 1, condition, cur, cur', x, hr => by
      rw [branches_succ] at hr
      obtain ⟨⟨nodes, ending⟩, cur₁, hbody, hr⟩ := bind_eq_ok_iff.mp hr
      have hcur₁ := h.block _ _ _ hbody
      cases ending with
      | endOfText => cases hr
      | finish position =>
        cases hr
        exact hblock _ _ _ hbody nofun
      | elseIf next position =>
        obtain ⟨_, _, hmore, ⟨⟩⟩ := bind_eq_ok_iff.mp hr
        exact (branches_unblank limit hmore).of_suffix hcur₁
      | otherwise position => exact (afterLastBody_unblank hblock hr).of_suffix hcur₁

omit h in
theorem loopBody_unblank {opened : Position} {cur cur' : Cursor} {ns : List Node}
    (hr : loopBody inner opened cur = .ok (ns, cur')) : cur.EndsUnblank cur' := by
  rw [loopBody_eq] at hr
  obtain ⟨⟨nodes, ending⟩, cur₁, hbody, hr⟩ := bind_eq_ok_iff.mp hr
  cases ending with
  | finish position =>
    cases hr
    exact hblock _ _ _ hbody nofun
  | _ => cases hr

theorem proceed_unblank {position : Position} {d : Draft} {word : Directive} {p : Head word}
    {cur cur' : Cursor} {s : Step} (hr : proceed inner position d word p cur = .ok (s, cur')) :
    cur' = cur ∨ cur.EndsUnblank cur' := by
  cases word with
  | ifThen =>
    obtain ⟨_, _, hbranches, ⟨⟩⟩ := bind_eq_ok_iff.mp hr
    exact .inr (branches_unblank h hblock _ hbranches)
  | forEach =>
    obtain ⟨_, _, hbody, ⟨⟩⟩ := bind_eq_ok_iff.mp hr
    exact .inr (loopBody_unblank hblock hbody)
  | _ =>
    cases hr
    exact .inl rfl

/-- What begins with `#` ends with no blank, unless the `#` is a character of text. -/
theorem marked_unblank {d : Draft} {cur cur' : Cursor} {cs : List Char} {s : Step}
    (hcur : cur.rest = '#' :: cs) (hr : marked inner d (mark cs) cur = .ok (s, cur')) :
    (s = .goOn (d.push '#') ∧ cur' = cur.skip 1) ∨ cur.EndsUnblank cur' := by
  generalize hmark : mark cs = m at hr
  cases m with
  | lineComment =>
    obtain ⟨_, _, hcomment, ⟨⟩⟩ := bind_eq_ok_iff.mp hr
    exact .inr (lineComment_unblank hcomment)
  | blockComment =>
    obtain ⟨_, _, hcomment, ⟨⟩⟩ := bind_eq_ok_iff.mp hr
    obtain ⟨n, hfound, hgobble⟩ := blockComment_eq_ok_iff.mp hcomment
    exact .inr ((comment_solid hfound).unblank.trans (gobble_unblank hgobble))
  | verbatim =>
    obtain ⟨_, _, htext, ⟨⟩⟩ := bind_eq_ok_iff.mp hr
    obtain ⟨n, hfound, -, rfl⟩ := verbatim_eq_ok_iff.mp htext
    exact .inr (verbatim_solid hfound).unblank
  | directive word n =>
    obtain ⟨p, d₁, cur₁, hdirective, hr⟩ :=
      (marked_directive_eq_ok_iff hcur (mark_eq_directive_iff.mp hmark)).mp hr
    exact .inr ((directiveAt_unblank h hdirective).trans (proceed_unblank h hblock hr))
  | text =>
    cases hr
    exact .inl ⟨rfl, rfl⟩

/-- A part of a block is a character of text, or it ends with no blank. -/
theorem step_unblank {d : Draft} {cur cur' : Cursor} {s : Step} (hcur : cur.rest ≠ [])
    (hr : step inner d cur = .ok (s, cur')) :
    (∃ c, cur.rest = c :: cur'.rest ∧ s = .goOn (d.push c) ∧ cur' = cur.skip 1) ∨
      cur.EndsUnblank cur' := by
  have hpush {c : Char} (hhead : cur.rest.head? = some c) :
      ∃ c', cur.rest = c' :: (cur.skip 1).rest ∧
        Step.goOn (d.push c) = .goOn (d.push c') ∧ cur.skip 1 = cur.skip 1 := by
    obtain ⟨cs, hrest⟩ := List.head?_eq_some_iff.mp hhead
    refine ⟨c, ?_, rfl, rfl⟩
    rw [Cursor.rest_skip, hrest]
    rfl
  obtain ⟨_, _, ⟨⟩, hr⟩ := bind_eq_ok_iff.mp hr
  generalize hhead : cur.rest.head? = c? at hr
  split at hr
  · exact absurd (List.head?_eq_none_iff.mp hhead) hcur
  · obtain ⟨_, _, hescape, ⟨⟩⟩ := bind_eq_ok_iff.mp hr
    obtain ⟨cs, hrest⟩ := List.head?_eq_some_iff.mp hhead
    exact .inr (escape_solid hrest hescape).unblank
  · obtain ⟨r?, cur₁, hr?, hr⟩ := bind_eq_ok_iff.mp hr
    cases r? with
    | some r =>
      cases hr
      obtain ⟨cs, hrest⟩ := List.head?_eq_some_iff.mp hhead
      exact .inr (reference?_solid h hrest hr?).unblank
    | none =>
      cases hr
      obtain rfl := reference?_none hr?
      exact .inl (hpush hhead)
  · obtain ⟨cs, hrest⟩ := List.head?_eq_some_iff.mp hhead
    rw [hash_eq, hrest, List.tail_cons] at hr
    obtain ⟨rfl, rfl⟩ | hunblank := marked_unblank h hblock hrest hr
    · exact .inl (hpush hhead)
    · exact .inr hunblank
  · cases hr
    exact .inl (hpush hhead)

/-- A block that does not end with the text ends with no blank. -/
theorem blockFrom_unblank : (limit : Nat) → {d : Draft} → {cur cur' : Cursor} → {b : Block} →
    blockFrom inner limit d cur = .ok (b, cur') → b.ending ≠ .endOfText → cur.EndsUnblank cur'
  | 0, _, _, _, _, hr, hb => by
      cases hr
      exact absurd rfl hb
  | limit + 1, d, cur, cur', b, hr, hb => by
      obtain ⟨s, cur₁, hstep, hr⟩ := bind_eq_ok_iff.mp hr
      cases s with
      | goOn d' =>
        exact (blockFrom_unblank limit hr hb).of_suffix (step_shrinks h d _ _ _ hstep)
      | done b' =>
        cases hr
        by_cases hcur : cur.rest = []
        · rw [step_of_nil hcur] at hstep
          cases hstep
          exact absurd rfl hb
        · obtain ⟨_, -, ⟨⟩, -⟩ | hunblank := step_unblank h hblock hcur hstep
          exact hunblank

end

end

end Grammar

theorem Inner.upTo_unblank : (limit : Nat) → ∀ cur b cur',
    (Inner.upTo limit).block cur = .ok (b, cur') → b.ending ≠ .endOfText → cur.EndsUnblank cur'
  | 0, _, _, _, hr, hb => by
      cases hr
      exact absurd rfl hb
  | limit + 1, _, _, _, hr, hb =>
      Grammar.blockFrom_unblank (upTo_shrinks limit) (upTo_unblank limit) _ hr hb

end GatewayMapping.Template
