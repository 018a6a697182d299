import GatewayMapping.Template.Block

/-!
# What reading leaves

A reader takes characters from the beginning of what is left and leaves the others, so what it
leaves is an end of what there was (`Read.Shrinks`). In particular no reader leaves more
characters than it finds. Whatever looks ahead has to put nothing back.

## Main definitions

* `Read.Shrinks`: a reader leaves an end of what it finds.

## Main results

* `Inner.upTo_shrinks`: the readers of expressions and blocks do.
-/

namespace GatewayMapping.Template

variable {α β : Type}

namespace Read

/-- A sequence ends where its second part ends after its first. -/
theorem bind_eq_ok_iff {x : Read α} {f : α → Read β} {cur cur'' : Cursor} {b : β} :
    (x >>= f) cur = .ok (b, cur'') ↔
      ∃ a cur', x cur = .ok (a, cur') ∧ f a cur' = .ok (b, cur'') := by
  change (x cur >>= fun p => f p.1 p.2) = _ ↔ _
  cases hx : x cur with
  | error e => exact ⟨nofun, nofun⟩
  | ok p =>
    obtain ⟨a, cur'⟩ := p
    constructor
    · exact fun hf => ⟨a, cur', rfl, hf⟩
    · rintro ⟨_, _, heq, hf⟩
      cases heq
      exact hf

/-- What the reader leaves is an end of what it finds. -/
def Shrinks (r : Read α) : Prop :=
  ∀ cur a cur', r cur = .ok (a, cur') → cur'.rest <:+ cur.rest

namespace Shrinks

theorem pure (a : α) : Shrinks (pure a : Read α) := by
  rintro cur _ _ ⟨⟩
  exact List.suffix_rfl

theorem bind {x : Read α} {f : α → Read β} (hx : Shrinks x) (hf : ∀ a, Shrinks (f a)) :
    Shrinks (x >>= f) := by
  intro cur b cur'' h
  obtain ⟨a, cur', hxa, hfb⟩ := bind_eq_ok_iff.mp h
  exact (hf a cur' b cur'' hfb).trans (hx cur a cur' hxa)

theorem get : Shrinks (get : Read Cursor) := by
  rintro cur _ _ ⟨⟩
  exact List.suffix_rfl

theorem here : Shrinks here := by
  rintro cur _ _ ⟨⟩
  exact List.suffix_rfl

theorem rest : Shrinks rest := by
  rintro cur _ _ ⟨⟩
  exact List.suffix_rfl

theorem peek? : Shrinks peek? := by
  rintro cur _ _ ⟨⟩
  exact List.suffix_rfl

theorem skip (n : Nat) : Shrinks (skip n) := by
  rintro cur _ _ ⟨⟩
  rw [Cursor.rest_skip]
  exact List.drop_suffix n cur.rest

theorem skipWhile (p : Char → Bool) : Shrinks (skipWhile p) := by
  rintro cur _ _ ⟨⟩
  rw [Cursor.rest_skipWhile]
  exact List.dropWhile_suffix p

theorem takeWhile (p : Char → Bool) : Shrinks (takeWhile p) := by
  rintro cur _ _ ⟨⟩
  rw [Cursor.rest_skipWhile]
  exact List.dropWhile_suffix p

theorem failAt (position : Position) (fault : SyntaxFault) :
    Shrinks (failAt position fault : Read α) := by
  rintro cur _ _ ⟨⟩

theorem fail (fault : SyntaxFault) : Shrinks (fail fault : Read α) := by
  rintro cur _ _ ⟨⟩

theorem unexpected (expected : Expected) : Shrinks (unexpected expected : Read α) := by
  rintro cur _ _ ⟨⟩

/-- A reader that runs another one on a text of its own leaves what it finds. -/
theorem lift (x : Except SyntaxError α) : Shrinks (liftM x : Read α) := by
  intro cur a cur' h
  cases x with
  | error e => cases h
  | ok a =>
    cases h
    exact List.suffix_rfl

theorem ite {c : Prop} [Decidable c] {x y : Read α} (hx : Shrinks x) (hy : Shrinks y) :
    Shrinks (if c then x else y) := by
  split
  · exact hx
  · exact hy

theorem char (c : Char) (expected : Expected) : Shrinks (char c expected) :=
  peek?.bind fun _ => (skip 1).ite (unexpected expected)

theorem sign (cs : List Char) : Shrinks (sign cs) :=
  rest.bind fun _ => ((skip cs.length).bind fun _ => pure true).ite (pure false)

theorem wholeWord (word : List Char) : Shrinks (wholeWord word) :=
  rest.bind fun _ => ((skip word.length).bind fun _ => pure true).ite (pure false)

theorem name : Shrinks name :=
  (takeWhile isNameChar).bind fun _ => pure _

theorem quoted (quote : Char) : Shrinks (quoted quote) := by
  refine rest.bind fun cs => ?_
  cases quotedContent? quote cs.tail with
  | some p => exact (skip (p.2 + 1)).bind fun _ => pure p.1
  | none => exact fail .unclosedString

theorem itemsAfter {item : Read α} (h : Shrinks item) (close : Char) (expected : Expected) :
    (limit : Nat) → Shrinks (itemsAfter item close expected limit)
  | 0 => unexpected expected
  | limit + 1 => by
      refine (skipWhile isExprBlank).bind fun _ => peek?.bind fun c? => ?_
      cases c? with
      | none => exact unexpected expected
      | some c =>
        have hmore := (skip 1).bind fun _ => h.bind fun x =>
          (itemsAfter h close expected limit).bind fun xs => pure (x :: xs)
        exact hmore.ite (((skip 1).bind fun _ => pure []).ite (unexpected expected))

theorem items {item : Read α} (h : Shrinks item) (close : Char) (expected : Expected)
    (limit : Nat) : Shrinks (items item close expected limit) := by
  refine (skipWhile isExprBlank).bind fun _ => peek?.bind fun c? => ?_
  have hmore := h.bind fun x =>
    (itemsAfter h close expected limit).bind fun xs => pure (x :: xs)
  exact ((skip 1).bind fun _ => pure []).ite hmore

end Shrinks
end Read

/-- Both readers leave ends of what they find. -/
structure Inner.Shrinks (inner : Inner) : Prop where
  expr : Read.Shrinks inner.expr
  block : Read.Shrinks inner.block

namespace Grammar

open Read (Shrinks)

/-! ### Parts of expressions -/

theorem number_shrinks : Shrinks number := by
  refine (Shrinks.takeWhile Char.isDigit).bind fun whole => Shrinks.rest.bind fun cs => ?_
  split
  · exact ((Shrinks.skip 1).bind fun _ => (Shrinks.takeWhile Char.isDigit).bind fun _ =>
      .pure _).ite (.pure _)
  · exact .pure _

theorem constant_shrinks : Shrinks constant := by
  refine (Shrinks.wholeWord _).bind fun _ => .ite (.pure _) ?_
  refine (Shrinks.wholeWord _).bind fun _ => .ite (.pure _) ?_
  refine (Shrinks.wholeWord _).bind fun _ => .ite (.pure _) ?_
  exact Shrinks.here.bind fun _ => (Shrinks.takeWhile isNameChar).bind fun _ => .failAt _ _

theorem unaryOp?_shrinks : Shrinks unaryOp? := by
  refine Shrinks.rest.bind fun cs => ?_
  split
  · exact .pure none
  · exact (Shrinks.skip 1).bind fun _ => .pure _
  · exact (Shrinks.wholeWord _).bind fun _ =>
      .ite (.pure _) (.ite ((Shrinks.skip 1).bind fun _ => .pure _) (.pure none))

theorem binaryOp?_shrinks : (ops : List BinaryOp) → Shrinks (binaryOp? ops)
  | [] => .pure none
  | op :: ops => by
      refine (Shrinks.sign op.symbol).bind fun _ => .ite (.pure _) ?_
      cases op.word? with
      | some word =>
        exact (Shrinks.wholeWord word).bind fun _ => .ite (.pure _) (binaryOp?_shrinks ops)
      | none => exact binaryOp?_shrinks ops

theorem doubleQuoted_shrinks (inner : Inner) : Shrinks (doubleQuoted inner) := by
  refine Shrinks.here.bind fun _ => (Shrinks.quoted _).bind fun _ => .ite ?_ (.pure _)
  exact (Shrinks.lift _).bind fun _ => (Shrinks.lift _).bind fun _ => .pure _

section

variable {inner : Inner} (h : inner.Shrinks)
include h

theorem list_shrinks : Shrinks (list inner) := by
  refine (Shrinks.skip 1).bind fun _ => (Shrinks.skipWhile _).bind fun _ =>
    Shrinks.peek?.bind fun _ => .ite ((Shrinks.skip 1).bind fun _ => .pure _) ?_
  refine h.expr.bind fun _ => (Shrinks.skipWhile _).bind fun _ => (Shrinks.sign _).bind fun _ =>
    .ite ?_ ?_
  · exact h.expr.bind fun _ => (Shrinks.skipWhile _).bind fun _ =>
      (Shrinks.char _ _).bind fun _ => .pure _
  · exact (Shrinks.itemsAfter h.expr _ _ _).bind fun _ => .pure _

theorem entry_shrinks : Shrinks (entry inner) :=
  h.expr.bind fun _ => (Shrinks.skipWhile _).bind fun _ => (Shrinks.char _ _).bind fun _ =>
    h.expr.bind fun _ => .pure _

theorem map_shrinks : Shrinks (map inner) :=
  (Shrinks.skip 1).bind fun _ => (Shrinks.items (entry_shrinks h) _ _ _).bind fun _ => .pure _

theorem segments_shrinks : (limit : Nat) → Shrinks (segments inner limit)
  | 0 => .pure []
  | limit + 1 => by
      have hmore {s : Segment} :
          Shrinks (return s :: (← segments inner limit) : Read (List Segment)) :=
        (segments_shrinks limit).bind fun _ => .pure _
      refine Shrinks.rest.bind fun cs => ?_
      split
      · refine .ite ((Shrinks.skip 1).bind fun _ => Shrinks.name.bind fun _ =>
          Shrinks.peek?.bind fun _ => .ite ?_ hmore) (.pure [])
        exact (Shrinks.skip 1).bind fun _ => (Shrinks.items h.expr _ _ _).bind fun _ => hmore
      · exact (Shrinks.skip 1).bind fun _ => h.expr.bind fun _ =>
          (Shrinks.skipWhile _).bind fun _ => (Shrinks.char _ _).bind fun _ => hmore
      · exact .pure []

theorem referenceAfter_shrinks (s : Sigil) : Shrinks (referenceAfter inner s) := by
  refine Shrinks.get.bind fun _ => (Shrinks.skip _).bind fun _ => Shrinks.name.bind fun _ =>
    (segments_shrinks h _).bind fun _ => ?_
  have hend {r : Cursor → Reference} : Shrinks (return r (← get)) :=
    Shrinks.get.bind fun _ => .pure _
  exact .ite ((Shrinks.char _ _).bind fun _ => hend) hend

theorem reference?_shrinks : Shrinks (reference? inner) := by
  refine Shrinks.rest.bind fun cs => ?_
  cases sigil? cs.tail with
  | some s => exact (referenceAfter_shrinks h s).bind fun _ => .pure _
  | none => exact .pure none

omit h in
/-- Where no reference begins nothing is taken. -/
theorem reference?_none {cur cur' : Cursor} (hr : reference? inner cur = .ok (none, cur')) :
    cur' = cur := by
  obtain ⟨_, _, ⟨⟩, hr⟩ := Read.bind_eq_ok_iff.mp hr
  cases hsigil : sigil? cur.rest.tail with
  | none =>
    rw [hsigil] at hr
    cases hr
    rfl
  | some s =>
    rw [hsigil] at hr
    obtain ⟨_, _, -, hr⟩ := Read.bind_eq_ok_iff.mp hr
    cases hr

theorem reference_shrinks : Shrinks (reference inner) := by
  refine Shrinks.peek?.bind fun _ => .ite ((reference?_shrinks h).bind fun r? => ?_)
    (.unexpected _)
  cases r? with
  | some r => exact .pure r
  | none => exact .unexpected _

/-! ### Expressions -/

theorem primary_shrinks : Shrinks (primary inner) := by
  refine (Shrinks.skipWhile _).bind fun _ => Shrinks.peek?.bind fun c? => ?_
  split
  · exact .unexpected _
  · exact (Shrinks.skip 1).bind fun _ => h.expr.bind fun _ => (Shrinks.skipWhile _).bind fun _ =>
      (Shrinks.char _ _).bind fun _ => .pure _
  · exact (Shrinks.quoted _).bind fun _ => .pure _
  · exact doubleQuoted_shrinks inner
  · exact list_shrinks h
  · exact map_shrinks h
  · exact (reference_shrinks h).bind fun _ => .pure _
  · exact .ite number_shrinks (.ite constant_shrinks (.unexpected _))

theorem unary_shrinks : (limit : Nat) → Shrinks (unary inner limit)
  | 0 => primary_shrinks h
  | limit + 1 => by
      refine (Shrinks.skipWhile _).bind fun _ => Shrinks.here.bind fun _ =>
        unaryOp?_shrinks.bind fun op? => ?_
      cases op? with
      | some op => exact (unary_shrinks limit).bind fun _ => .pure _
      | none => exact primary_shrinks h

omit h in
theorem chain_shrinks {operand : Read Expr} (ho : Shrinks operand) (ops : List BinaryOp) :
    (limit : Nat) → (left : Expr) → Shrinks (chain operand ops limit left)
  | 0, left => .pure left
  | limit + 1, left => by
      refine (Shrinks.skipWhile _).bind fun _ => Shrinks.here.bind fun _ =>
        (binaryOp?_shrinks ops).bind fun op? => ?_
      cases op? with
      | some op => exact ho.bind fun _ => chain_shrinks ho ops limit _
      | none => exact .pure left

omit h in
theorem level_shrinks {operand : Read Expr} (ho : Shrinks operand) (limit : Nat)
    (ops : List BinaryOp) : Shrinks (level limit ops operand) :=
  ho.bind fun _ => chain_shrinks ho ops limit _

theorem levels_shrink (limit : Nat) :
    (levels : List (List BinaryOp)) → Shrinks (levels.foldr (level limit) (unary inner limit))
  | [] => unary_shrinks h limit
  | ops :: levels => level_shrinks (levels_shrink limit levels) limit ops

theorem expr_shrinks : Shrinks (expr inner) := levels_shrink h _ levels

/-! ### Parts of blocks -/

omit h in
theorem gobble_shrinks (indent : Option Nat) (d : Draft) : Shrinks (Read.gobble indent d) := by
  refine Shrinks.rest.bind fun cs => ?_
  split
  · exact (Shrinks.skip _).bind fun _ => .pure _
  · exact .pure d

omit h in
theorem escape_shrinks (d : Draft) : Shrinks (escape d) := by
  refine (Shrinks.takeWhile _).bind fun _ => Shrinks.peek?.bind fun c? => ?_
  cases c? with
  | some c =>
    exact .ite (.ite ((Shrinks.skip 1).bind fun _ => .pure _) (.pure _)) (.pure _)
  | none => exact .pure _

omit h in
theorem lineComment_shrinks (d : Draft) : Shrinks (lineComment d) :=
  Shrinks.get.bind fun _ => (Shrinks.skipWhile _).bind fun _ => (Shrinks.skip 1).bind fun _ =>
    .pure _

omit h in
theorem blockComment_shrinks (d : Draft) : Shrinks (blockComment d) := by
  refine Shrinks.get.bind fun _ => Shrinks.rest.bind fun cs => ?_
  cases Text.indexOf? ['*', '#'] (cs.drop 2) with
  | some n => exact (Shrinks.skip _).bind fun _ => gobble_shrinks _ d
  | none => exact .fail _

omit h in
theorem verbatim_shrinks (d : Draft) : Shrinks (verbatim d) := by
  refine Shrinks.rest.bind fun cs => ?_
  dsimp only
  cases Text.indexOf? [']', ']', '#'] (cs.drop 3) with
  | some n => exact (Shrinks.skip _).bind fun _ => .pure _
  | none => exact .fail _

omit h in
theorem openParen_shrinks (d : Directive) : Shrinks (openParen d) :=
  (Shrinks.skipWhile _).bind fun _ => .char _ _

omit h in
theorem closeParen_shrinks : Shrinks closeParen :=
  (Shrinks.skipWhile _).bind fun _ => .char _ _

theorem argument_shrinks (d : Directive) : Shrinks (argument inner d) :=
  (openParen_shrinks d).bind fun _ => h.expr.bind fun _ => closeParen_shrinks.bind fun _ => .pure _

theorem assignment_shrinks : Shrinks (assignment inner) := by
  refine (openParen_shrinks _).bind fun _ => (Shrinks.skipWhile _).bind fun _ =>
    (reference_shrinks h).bind fun _ => (Shrinks.skipWhile _).bind fun _ =>
      Shrinks.rest.bind fun cs => ?_
  split
  · exact .unexpected _
  · exact (Shrinks.skip 1).bind fun _ => h.expr.bind fun _ => closeParen_shrinks.bind fun _ =>
      .pure _
  · exact .unexpected _

theorem loopHead_shrinks : Shrinks (loopHead inner) := by
  refine (openParen_shrinks _).bind fun _ => (Shrinks.skipWhile _).bind fun _ =>
    (reference_shrinks h).bind fun r => .ite ?_ (.failAt _ _)
  refine (Shrinks.skipWhile _).bind fun _ => (Shrinks.wholeWord _).bind fun _ =>
    .ite ?_ (.unexpected _)
  exact h.expr.bind fun _ => closeParen_shrinks.bind fun _ => .pure _

theorem branches_shrinks (opened : Position) :
    (limit : Nat) → (condition : Expr) → Shrinks (branches inner opened limit condition)
  | 0, _ => .unexpected _
  | limit + 1, condition => by
      refine h.block.bind fun body => ?_
      cases body.ending with
      | endOfText => exact .unexpected _
      | finish position => exact .pure _
      | elseIf next position => exact (branches_shrinks opened limit next).bind fun _ => .pure _
      | otherwise position =>
        refine h.block.bind fun last => ?_
        cases last.ending with
        | endOfText => exact .unexpected _
        | finish position => exact .pure _
        | otherwise position => exact .failAt _ _
        | elseIf next position => exact .failAt _ _

theorem loopBody_shrinks (opened : Position) : Shrinks (loopBody inner opened) := by
  refine h.block.bind fun body => ?_
  cases body.ending with
  | endOfText => exact .unexpected _
  | finish position => exact .pure _
  | otherwise position => exact .failAt _ _
  | elseIf next position => exact .failAt _ _

theorem directive_shrinks (position : Position) (indent : Option Nat) (d : Draft) :
    (word : Directive) → Shrinks (directive inner position indent d word)
  | .assign => (assignment_shrinks h).bind fun _ => (gobble_shrinks _ _).bind fun _ => .pure _
  | .ifThen => (argument_shrinks h _).bind fun _ => (gobble_shrinks _ _).bind fun _ =>
      (branches_shrinks h _ _ _).bind fun _ => .pure _
  | .elseIf => (argument_shrinks h _).bind fun _ => (gobble_shrinks _ _).bind fun _ => .pure _
  | .otherwise => (gobble_shrinks _ _).bind fun _ => .pure _
  | .finish => (gobble_shrinks _ _).bind fun _ => .pure _
  | .forEach => (loopHead_shrinks h).bind fun _ => (gobble_shrinks _ _).bind fun _ =>
      (loopBody_shrinks h _).bind fun _ => .pure _
  | .leave => (gobble_shrinks _ _).bind fun _ => .pure _
  | .stop => (gobble_shrinks _ _).bind fun _ => .pure _
  | .parse => (argument_shrinks h _).bind fun _ => (gobble_shrinks _ _).bind fun _ => .pure _
  | .insert => (argument_shrinks h _).bind fun _ => (gobble_shrinks _ _).bind fun _ => .pure _

theorem hash_shrinks (d : Draft) : Shrinks (hash inner d) := by
  refine Shrinks.rest.bind fun cs => ?_
  split
  · exact (lineComment_shrinks d).bind fun _ => .pure _
  · exact (blockComment_shrinks d).bind fun _ => .pure _
  · exact (verbatim_shrinks d).bind fun _ => .pure _
  · split
    · exact Shrinks.get.bind fun _ => (Shrinks.skip _).bind fun _ => directive_shrinks h _ _ _ _
    · exact (Shrinks.skip 1).bind fun _ => .pure _

theorem step_shrinks (d : Draft) : Shrinks (step inner d) := by
  refine Shrinks.peek?.bind fun c? => ?_
  split
  · exact .pure _
  · exact (escape_shrinks d).bind fun _ => .pure _
  · refine (reference?_shrinks h).bind fun r? => ?_
    cases r? with
    | some r => exact .pure _
    | none => exact (Shrinks.skip 1).bind fun _ => .pure _
  · exact hash_shrinks h d
  · exact (Shrinks.skip 1).bind fun _ => .pure _

/-! ### Blocks -/

theorem blockFrom_shrinks : (limit : Nat) → (d : Draft) → Shrinks (blockFrom inner limit d)
  | 0, _ => .pure _
  | limit + 1, d => by
      refine (step_shrinks h d).bind fun s => ?_
      cases s with
      | goOn d => exact blockFrom_shrinks limit d
      | done b => exact .pure b

theorem block_shrinks : Shrinks (block inner) := blockFrom_shrinks h _ _

end

end Grammar

theorem Inner.limit_upTo : (n : Nat) → (Inner.upTo n).limit = n
  | 0 => rfl
  | _ + 1 => rfl

/-- The readers of expressions and blocks leave ends of what they find. -/
theorem Inner.upTo_shrinks : (limit : Nat) → (Inner.upTo limit).Shrinks
  | 0 => ⟨.unexpected _, .pure _⟩
  | limit + 1 =>
    ⟨Grammar.expr_shrinks (upTo_shrinks limit), Grammar.block_shrinks (upTo_shrinks limit)⟩

end GatewayMapping.Template
