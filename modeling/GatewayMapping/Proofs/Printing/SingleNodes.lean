import GatewayMapping.Proofs.Printing.DoubleQuotes
import GatewayMapping.Proofs.Printing.ExpressionRoundTrip

/-!
# Sources of one node

A directive that is alone in its source takes nothing with it, so the node that it is read as is
all there is. Here are the sources that assign an expression, and those that are a reference. No
braces are needed around a reference that ends where its path does not go on: at the end of the
source, before a blank, or before what closes the brackets around it.

## Main results

* `parse_single`: a source is read as its only node.
* `parse_reference`, `parse_assign`: references and assignments, places and literals apart.
-/

namespace GatewayMapping.Template

open Read (Yields)
open Grammar

variable {source name : String} {path : List Segment} {cs ds : List Char}

/-- A source that is read as a single node. -/
theorem parse_single {P : Node → Prop}
    (h : Yields (step (Inner.upTo source.toList.length) .empty) source.toList
      fun s left => (∃ node, s = .goOn (Draft.empty.add node) ∧ P node) ∧ left = []) :
    ∃ node, parse source = .ok [node] ∧ P node := by
  have hblock : Yields (block (Inner.upTo source.toList.length)) source.toList fun b _ =>
      b.ending = .endOfText ∧ ∃ node, b.nodes = [node] ∧ P node := by
    refine blockFrom_step (h.mono fun s left hs => ?_)
    obtain ⟨⟨node, rfl, hnode⟩, rfl⟩ := hs
    exact fun cur hcur => ⟨_, cur, blockFrom_of_nil hcur _ _ _, rfl, node, rfl, hnode⟩
  obtain ⟨_, hparse, node, rfl, hnode⟩ :=
    parse_of_yields (P := fun ns => ∃ node, ns = [node] ∧ P node) hblock
  exact ⟨node, hparse, hnode⟩

/-- A reference at the end of a source. -/
theorem step_reference_yields {n : Nat} (d : Draft) (hname : IsName name)
    (hpath : ReadsPath path cs) (hn : cs.length ≤ n) :
    Yields (step (Inner.upTo n) d) ('$' :: (name.toList ++ cs)) fun s left =>
      (∃ node, s = .goOn (d.add node) ∧ ∃ r, node = .reference r ∧
        r.unplaced noLiteral = (Reference.mk name path false "" .start).unplaced noLiteral) ∧
        left = [] := by
  have hread := reference?_yields ⟨false, false⟩ "" .start hname hpath hn EndsPath.nil
  rw [Sigil.opening, Sigil.closing] at hread
  simp only [Bool.false_eq_true, if_false, List.nil_append, List.append_nil] at hread
  refine .seq (.peek? (.seq (hread.mono fun r? left hr => ?_)))
  obtain ⟨hr, rfl⟩ := hr
  obtain ⟨r, rfl, hr'⟩ := Option.map_eq_some_iff.mp hr
  exact .pure ⟨⟨_, rfl, r, rfl, hr'⟩, rfl⟩

/-- A source that is a reference. -/
theorem parse_reference (hname : IsName name) (hpath : ReadsPath path cs)
    (hsource : source.toList = '$' :: (name.toList ++ cs)) :
    ∃ r, parse source = .ok [.reference r] ∧
      r.unplaced noLiteral = (Reference.mk name path false "" .start).unplaced noLiteral := by
  have hlength : cs.length ≤ source.toList.length := by
    rw [hsource, List.length_cons, List.length_append]
    omega
  have hstep := step_reference_yields .empty hname hpath hlength
  rw [← hsource] at hstep
  obtain ⟨_, hparse, r, rfl, hr⟩ := parse_single (P := fun node => ∃ r, node = .reference r ∧
    r.unplaced noLiteral = (Reference.mk name path false "" .start).unplaced noLiteral) hstep
  exact ⟨r, hparse, hr⟩

/-- A directive is read after its word. -/
theorem step_directive_yields {inner : Inner} {d : Draft} (w : Directive) {rest : List Char}
    {Q : Step → List Char → Prop}
    (h : ∀ position indent, Yields (directive inner position indent d w) ('(' :: rest) Q) :
    Yields (step inner d) ('#' :: (w.word ++ '(' :: rest)) Q := by
  rintro ⟨_, position, indent⟩ rfl
  rw [step_withArguments]
  refine h _ _ _ ?_
  rw [Cursor.rest_skip, List.drop_succ_cons, List.drop_left]

/-- At the end of a text nothing is taken from an empty draft. -/
theorem gobble_empty_yields (indent : Option Nat) {Q : Draft → List Char → Prop}
    (h : Q .empty []) : Yields (Read.gobble indent .empty) [] Q := by
  refine .seq (.rest ?_)
  cases indent with
  | none => exact .pure h
  | some n =>
    refine .seq (.skip (.pure ?_))
    cases n with
    | zero => exact h
    | succ n => exact h

/-- The directive that assigns an expression, at the beginning of a source. It takes nothing of
what follows it. -/
theorem step_assign_yields {n : Nat} {e : Expr} (hname : IsName name) (hpath : ReadsPath path cs)
    (he : ReadsItem innerExpr (Expr.unplaced noLiteral) e (' ' :: ds)) {tail : List Char}
    (htail : ∀ indent, Yields (Read.gobble indent .empty) tail fun d left =>
      d = .empty ∧ left = tail) (hn : cs.length + ds.length < n) :
    Yields (step (Inner.upTo n) .empty) ('#' :: (Directive.assign.word ++ '(' :: '$' ::
        (name.toList ++ (cs ++ ' ' :: '=' :: ' ' :: (ds ++ ')' :: tail)))))
      fun s left => (∃ node, s = .goOn (Draft.empty.add node) ∧ ∃ target value position,
        node = .assign target value position ∧
        target.unplaced noLiteral = (Reference.mk name path false "" .start).unplaced noLiteral ∧
        value.unplaced noLiteral = e.unplaced noLiteral) ∧ left = tail := by
  have hds : (' ' :: ds).length ≤ n := by
    rw [List.length_cons]
    omega
  have htarget := reference_yields_of_sigil ⟨false, false⟩ "" .start hname hpath
    (by omega : cs.length ≤ n)
    (EndsPath.cons (by decide) : EndsPath (' ' :: '=' :: ' ' :: (ds ++ ')' :: tail)))
  have hvalue := (he.reads hds (Follows.close (by simp) : Follows 0 (')' :: tail))).1
  refine step_directive_yields .assign fun position indent => ?_
  refine .seq ((assignment_of_parts htarget hvalue).mono fun p left hp => ?_)
  obtain ⟨⟨ht, hv⟩, rfl⟩ := hp
  refine .seq ((htail indent).mono fun d left hd => ?_)
  obtain ⟨rfl, rfl⟩ := hd
  exact .pure ⟨⟨_, rfl, _, _, _, rfl, ht, hv⟩, rfl⟩

/-- A source that assigns an expression to a variable or to what a path leads to. -/
theorem parse_assign {e : Expr} (hname : IsName name) (hpath : ReadsPath path cs)
    (he : ReadsItem innerExpr (Expr.unplaced noLiteral) e (' ' :: ds))
    (hsource : source.toList =
      "#set($".toList ++ (name.toList ++ (cs ++ (" = ".toList ++ (ds ++ [')']))))) :
    ∃ target value position, parse source = .ok [.assign target value position] ∧
      target.unplaced noLiteral = (Reference.mk name path false "" .start).unplaced noLiteral ∧
      value.unplaced noLiteral = e.unplaced noLiteral := by
  have htext : source.toList = '#' :: (Directive.assign.word ++ '(' :: '$' ::
      (name.toList ++ (cs ++ ' ' :: '=' :: ' ' :: (ds ++ [')'])))) := hsource
  have hlength : cs.length + ds.length < source.toList.length := by
    simp only [htext, List.length_cons, List.length_append]
    omega
  have hstep := step_assign_yields hname hpath he
    (fun indent => gobble_empty_yields indent ⟨rfl, rfl⟩) hlength
  rw [← htext] at hstep
  obtain ⟨_, hparse, target, value, position, rfl, h⟩ := parse_single
    (P := fun node => ∃ target value position, node = .assign target value position ∧
      target.unplaced noLiteral = (Reference.mk name path false "" .start).unplaced noLiteral ∧
      value.unplaced noLiteral = e.unplaced noLiteral) hstep
  exact ⟨target, value, position, hparse, h⟩

end GatewayMapping.Template
