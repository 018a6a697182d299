import GatewayMapping.Proofs.Printing.PartReading

/-!
# Reading what is printed for nodes

The empty verbatim block before a directive adds no text, and after it the directive does not
begin its line. So the directive takes nothing with it, and the draft of the block stays as it is
up to the node that the directive adds.

A node is read wherever what follows it is (`ReadsNode`), and so is a block up to its ending. The
ending of an inner block is what the directive that began it goes on with.

## Main definitions

* `ReadsNode`, `ReadsNodes`, `ReadsEnding`, `ReadsRest`: what is read from parts of a block.

## Main results

* `ReadsNode.conditional`, `ReadsNode.forEach`, `ReadsNode.assign`: directives are read.
* `ReadsNodes.text`, `ReadsNodes.cons`: a block is read node by node.
-/

namespace GatewayMapping.Template

open Read (Yields bind_eq_ok_iff)
open Grammar

variable {lit : String → String} {n limit : Nat} {cs ds fs tail : List Char} {inner : Inner}
  {d : Draft} {Q : Block → List Char → Prop}

/-! ### Directives -/

/-- What follows a part of a block: the rest of the block, if it has not ended. -/
def Continues (inner : Inner) (limit : Nat) (Q : Block → List Char → Prop) :
    Step → List Char → Prop
  | .goOn d, left => Yields (blockFrom inner limit d) left Q
  | .done b, left => Q b left

theorem blockFrom_step (h : Yields (step inner d) cs (Continues inner limit Q)) :
    Yields (blockFrom inner (limit + 1) d) cs Q := by
  refine .seq (h.mono fun s left hs => ?_)
  cases s with
  | goOn d => exact hs
  | done b => exact .pure hs

/-- A directive before its arguments. -/
theorem step_withArguments (w : Directive) (rest : List Char) (position : Position)
    (indent : Option Nat) :
    step inner d ⟨'#' :: (w.word ++ '(' :: rest), position, indent⟩ =
      directive inner position indent d w
        ((Cursor.mk ('#' :: (w.word ++ '(' :: rest)) position indent).skip
          (w.word.length + 1)) := by
  cases w <;> rfl

/-- A directive in braces, with something before it on its line. -/
theorem step_bare (w : Directive) (rest : List Char) (position : Position) :
    step inner d ⟨'#' :: '\x7b' :: (w.word ++ '\x7d' :: rest), position, none⟩ =
      directive inner position none d w
        ((Cursor.mk ('#' :: '\x7b' :: (w.word ++ '\x7d' :: rest)) position none).skip
          (w.word.length + 3)) := by
  cases w <;> rfl

/-- The empty verbatim block adds nothing to the text, and what follows it does not begin its
line. -/
theorem blockFrom_separator (h : ∀ position, ∃ s cur, step inner d ⟨cs, position, none⟩ =
      .ok (s, cur) ∧ Continues inner limit Q s cur.rest) :
    Yields (blockFrom inner (limit + 2) d) (separator ++ cs) Q := by
  rintro ⟨_, position, indent⟩ rfl
  have hseparator : step inner d ⟨separator ++ cs, position, indent⟩ =
      .ok (.goOn d, (Cursor.mk (separator ++ cs) position indent).skip 6) := rfl
  obtain ⟨s, cur, hs, hcontinues⟩ := h _
  cases s with
  | goOn d' =>
    obtain ⟨b, cur', hb, hQ⟩ := hcontinues cur rfl
    exact ⟨b, cur', bind_eq_ok_iff.mpr ⟨_, _, hseparator, bind_eq_ok_iff.mpr ⟨_, _, hs, hb⟩⟩, hQ⟩
  | done b =>
    exact ⟨b, cur, bind_eq_ok_iff.mpr ⟨_, _, hseparator, bind_eq_ok_iff.mpr ⟨_, _, hs, rfl⟩⟩,
      hcontinues⟩

theorem withArguments_yields (w : Directive)
    (h : ∀ position, Yields (directive inner position none d w) ('(' :: (cs ++ ')' :: tail))
      (Continues inner limit Q)) :
    Yields (blockFrom inner (limit + 2) d) (w.withArguments cs ++ tail) Q := by
  have htext : w.withArguments cs ++ tail =
      separator ++ '#' :: (w.word ++ '(' :: (cs ++ ')' :: tail)) := by
    simp [Directive.withArguments]
  rw [htext]
  refine blockFrom_separator fun position => ?_
  rw [step_withArguments]
  refine h _ _ ?_
  rw [Cursor.rest_skip, List.drop_succ_cons, List.drop_left]

theorem bare_yields (w : Directive)
    (h : ∀ position, Yields (directive inner position none d w) tail
      (Continues inner limit Q)) :
    Yields (blockFrom inner (limit + 2) d) (w.bare ++ tail) Q := by
  have htext : w.bare ++ tail = separator ++ '#' :: '\x7b' :: (w.word ++ '\x7d' :: tail) := by
    simp [Directive.bare]
  rw [htext]
  refine blockFrom_separator fun position => ?_
  rw [step_bare]
  refine h _ _ ?_
  have hdrop : (w.word ++ '\x7d' :: tail).drop (w.word.length + 1) = tail := by
    rw [← List.drop_drop, List.drop_left]
    rfl
  rw [Cursor.rest_skip, List.drop_succ_cons, List.drop_succ_cons, hdrop]

/-- A directive that does not begin its line takes nothing with it. -/
theorem gobble_yields {Q : Draft → List Char → Prop} (h : Q d cs) :
    Yields (Read.gobble none d) cs Q :=
  .seq (.rest (.pure h))

theorem openParen_yields {w : Directive} {Q : Unit → List Char → Prop} (h : Q () cs) :
    Yields (openParen w) ('(' :: cs) Q := by
  refine .seq (.skipWhile ?_)
  exact .char h

theorem closeParen_yields {Q : Unit → List Char → Prop} (h : Q () cs) :
    Yields closeParen (')' :: cs) Q := by
  refine .seq (.skipWhile ?_)
  exact .char h

/-! ### Arguments of directives -/

theorem argument_yields {e : Expr} (he : ArgumentText lit e cs) (hn : cs.length < n)
    (w : Directive) :
    Yields (argument (Inner.upTo n) w) ('(' :: (cs ++ ')' :: tail))
      fun e' left => e'.unplaced lit = e.unplaced lit ∧ left = tail := by
  refine .seq (openParen_yields (.seq ((he.yields hn tail).mono fun e' left he' => ?_)))
  obtain ⟨he', rfl⟩ := he'
  exact .seq (closeParen_yields (.pure ⟨he', rfl⟩))

/-- An expression is read after a blank. -/
theorem ArgumentText.yields_blank {e : Expr} (he : ArgumentText lit e cs) (hn : cs.length < n)
    (tail : List Char) :
    Yields (Inner.upTo n).expr (' ' :: (cs ++ ')' :: tail))
      fun e' left => e'.unplaced lit = e.unplaced lit ∧ left = ')' :: tail := by
  obtain ⟨m, rfl⟩ := Nat.exists_eq_add_one_of_ne_zero (by omega : n ≠ 0)
  exact (Read.SkipsBlanks.expr (Inner.upTo m)).yields rfl (he.yields hn tail)

theorem reference_yields {r : Reference} (hr : ReferenceText lit r cs) (hn : cs.length ≤ n + 1)
    (tail : List Char) :
    Yields (reference (Inner.upTo n)) (cs ++ tail)
      fun r' left => r'.unplaced lit = r.unplaced lit ∧ left = tail := by
  refine .seq (.peek? ?_)
  have hyields := hr.yields hn tail
  obtain ⟨quiet, rest, rfl⟩ := hr.braced
  refine .seq (hyields.mono fun r? left hr' => ?_)
  obtain ⟨⟨r', rfl, hr'⟩, rfl⟩ := hr'
  exact .pure ⟨hr', rfl⟩

/-- An assignment is read from its target and its value. -/
theorem assignment_of_parts {R : Reference → Prop} {V : Expr → Prop} {rest : List Char}
    (ht : Yields (reference inner) ('$' :: rest)
      fun r left => R r ∧ left = ' ' :: '=' :: ' ' :: ds)
    (hv : Yields inner.expr (' ' :: ds) fun e left => V e ∧ left = ')' :: tail) :
    Yields (assignment inner) ('(' :: '$' :: rest)
      fun p left => (R p.1 ∧ V p.2) ∧ left = tail := by
  refine .seq (openParen_yields (.seq (.skipWhile (.seq (ht.mono fun target left htarget => ?_)))))
  obtain ⟨htarget, rfl⟩ := htarget
  refine .seq (.skipWhile (.seq (.rest (.seq (.skip (.seq ?_))))))
  refine hv.mono fun value left hvalue => ?_
  obtain ⟨hvalue, rfl⟩ := hvalue
  exact .seq (closeParen_yields (.pure ⟨⟨htarget, hvalue⟩, rfl⟩))

theorem assignment_yields {target : Reference} {value : Expr} (ht : ReferenceText lit target cs)
    (hv : ArgumentText lit value ds) (hcs : cs.length ≤ n + 1) (hds : ds.length < n) :
    Yields (assignment (Inner.upTo n)) ('(' :: (cs ++ ' ' :: '=' :: ' ' :: (ds ++ ')' :: tail)))
      fun p left => (p.1.unplaced lit = target.unplaced lit ∧
        p.2.unplaced lit = value.unplaced lit) ∧ left = tail := by
  have hreads := reference_yields ht hcs (' ' :: '=' :: ' ' :: (ds ++ ')' :: tail))
  obtain ⟨quiet, rest, rfl⟩ := ht.braced
  exact assignment_of_parts hreads (hv.yields_blank hds tail)

theorem loopHead_yields {name : String} {items : Expr} (hname : IsName name)
    (hi : ArgumentText lit items cs) (hn : cs.length < n) :
    Yields (loopHead (Inner.upTo n))
      ('(' :: '$' :: (name.toList ++ ' ' :: 'i' :: 'n' :: ' ' :: (cs ++ ')' :: tail)))
      fun p left => (p.1 = name ∧ p.2.unplaced lit = items.unplaced lit) ∧ left = tail := by
  refine .seq (openParen_yields (.seq (.skipWhile (.seq ?_))))
  refine (variable_yields hname _).mono fun r left hr => ?_
  obtain ⟨rfl, hbare, rfl⟩ := hr
  rw [if_pos hbare]
  refine .seq (.skipWhile (.seq (.wholeWord_true rfl (.seq ?_))))
  refine (hi.yields_blank hn tail).mono fun items' left hitems => ?_
  obtain ⟨hitems, rfl⟩ := hitems
  exact .seq (closeParen_yields (.pure ⟨⟨rfl, hitems⟩, rfl⟩))

/-! ### Nodes -/

/-- Wherever the block goes on well after a node, it does so from the text on. -/
def ReadsNode (lit : String → String) (node : Node) (cs : List Char) : Prop :=
  ∀ ⦃n limit : Nat⦄ ⦃d : Draft⦄ ⦃tail : List Char⦄ ⦃Q : Block → List Char → Prop⦄,
    (cs ++ tail).length ≤ n + 1 → (cs ++ tail).length ≤ limit →
      (∀ node' limit', node'.unplaced lit = node.unplaced lit → tail.length ≤ limit' →
        Yields (blockFrom (Inner.upTo n) limit' (d.add node')) tail Q) →
      Yields (blockFrom (Inner.upTo n) limit d) (cs ++ tail) Q

/-- Wherever the block goes on well after some nodes, it does so from the text on. A text does not
go on with characters that were read before it. -/
def ReadsNodes (lit : String → String) (followed : Bool) (ns : List Node) (cs : List Char) : Prop :=
  ∀ ⦃n limit : Nat⦄ ⦃d : Draft⦄ ⦃tail : List Char⦄ ⦃Q : Block → List Char → Prop⦄,
    (cs ++ tail).length ≤ n + 1 → (cs ++ tail).length ≤ limit → GoesOn followed tail →
      (d.text ≠ [] → ∀ s, ns.head? ≠ some (.text s)) →
      (∀ d' limit', tail.length ≤ limit' →
        d'.finish.map (Node.unplaced lit) =
          d.finish.map (Node.unplaced lit) ++ ns.map (Node.unplaced lit) →
        Yields (blockFrom (Inner.upTo n) limit' d') tail Q) →
      Yields (blockFrom (Inner.upTo n) limit d) (cs ++ tail) Q

/-- A text begins with `$` or `#`. -/
def BeginsNode (cs : List Char) : Prop := ∃ c rest, cs = c :: rest ∧ isMark c = true

/-- The text is read as the ending of a block. -/
structure ReadsEnding (lit : String → String) (ending : Ending) (cs : List Char) : Prop where
  begins : BeginsNode cs
  reads : ∀ ⦃n limit : Nat⦄ ⦃d : Draft⦄ ⦃tail : List Char⦄, (cs ++ tail).length ≤ n + 1 →
    (cs ++ tail).length ≤ limit → Yields (blockFrom (Inner.upTo n) limit d) (cs ++ tail)
      fun b left => (b.nodes = d.finish ∧ b.ending.unplaced lit = ending.unplaced lit) ∧ left = tail

/-- The text is read as what follows the first branch of a condition. -/
structure ReadsRest (lit : String → String) (branches : List (Expr × List Node))
    (otherwise : Option (List Node)) (fs : List Char) : Prop where
  begins : BeginsNode fs
  reads : ∀ ⦃n limit : Nat⦄ ⦃tail ds : List Char⦄ ⦃condition condition' : Expr⦄
    ⦃ns : List Node⦄ ⦃opened : Position⦄, ReadsNodes lit true ns ds →
      condition'.unplaced lit = condition.unplaced lit → (ds ++ (fs ++ tail)).length ≤ n →
      (ds ++ (fs ++ tail)).length ≤ limit →
        Yields (Grammar.branches (Inner.upTo n) opened limit condition') (ds ++ (fs ++ tail))
          fun p left => branchesUnplaced lit p =
            branchesUnplaced lit ((condition, ns) :: branches, otherwise) ∧ left = tail

theorem ReadsNode.reference {r : Reference} (hr : ReferenceText lit r cs) :
    ReadsNode lit (.reference r) cs := by
  intro n limit d tail Q hn hlimit h
  rw [List.length_append] at hn hlimit
  have hyields := hr.yields (by omega : cs.length ≤ n + 1) tail
  obtain ⟨quiet, rest, rfl⟩ := hr.braced
  rw [List.length_cons] at hlimit
  obtain ⟨limit, rfl⟩ := Nat.exists_eq_add_one_of_ne_zero (by omega : limit ≠ 0)
  refine blockFrom_step (.seq (.peek? (.seq (hyields.mono fun r? left hr' => ?_))))
  obtain ⟨⟨r', rfl, hr'⟩, rfl⟩ := hr'
  exact .pure (h _ limit (congrArg Node.reference hr') (by omega))

/-- The step adds the node to the draft. -/
def Adds (lit : String → String) (node : Node) (d : Draft) (tail : List Char) (s : Step)
    (left : List Char) : Prop :=
  (∃ node', s = .goOn (d.add node') ∧ node'.unplaced lit = node.unplaced lit) ∧ left = tail

@[simp] theorem Directive.length_withArguments (w : Directive) (cs : List Char) :
    (w.withArguments cs).length = w.word.length + cs.length + 9 := by
  simp only [withArguments, separator, List.length_append, List.length_cons, List.length_nil]
  omega

@[simp] theorem Directive.length_bare (w : Directive) : w.bare.length = w.word.length + 9 := by
  simp only [bare, separator, List.length_append, List.length_cons, List.length_nil]
  omega

theorem ReadsNode.withArguments {node : Node} (w : Directive) (cs ds : List Char)
    (h : ∀ ⦃n position d tail⦄, (cs ++ ')' :: (ds ++ tail)).length ≤ n →
      Yields (directive (Inner.upTo n) position none d w) ('(' :: (cs ++ ')' :: (ds ++ tail)))
        (Adds lit node d tail)) :
    ReadsNode lit node (w.withArguments cs ++ ds) := by
  intro n limit d tail Q hn hlimit hQ
  simp only [List.length_append, Directive.length_withArguments] at hn hlimit
  obtain ⟨limit, rfl⟩ : ∃ l, limit = l + 2 := ⟨limit - 2, by omega⟩
  rw [List.append_assoc]
  refine withArguments_yields w fun position => ?_
  have hlength : (cs ++ ')' :: (ds ++ tail)).length ≤ n := by
    simp only [List.length_append, List.length_cons]
    omega
  refine (h hlength).mono fun s left hs => ?_
  obtain ⟨⟨node', rfl, hnode⟩, rfl⟩ := hs
  exact hQ node' limit hnode (by omega)

theorem ReadsNode.bare {node : Node} (w : Directive)
    (h : ∀ ⦃inner position d tail⦄, Yields (directive inner position none d w) tail
      (Adds lit node d tail)) :
    ReadsNode lit node w.bare := by
  intro n limit d tail Q hn hlimit hQ
  simp only [List.length_append, Directive.length_bare] at hn hlimit
  obtain ⟨limit, rfl⟩ : ∃ l, limit = l + 2 := ⟨limit - 2, by omega⟩
  refine bare_yields w fun position => h.mono fun s left hs => ?_
  obtain ⟨⟨node', rfl, hnode⟩, rfl⟩ := hs
  exact hQ node' limit hnode (by omega)

theorem ReadsNode.leave {position : Position} :
    ReadsNode lit (.leave position) Directive.leave.bare :=
  .bare _ fun _ _ _ _ => .seq (gobble_yields (.pure ⟨⟨_, rfl, rfl⟩, rfl⟩))

theorem ReadsNode.stop {position : Position} :
    ReadsNode lit (.stop position) Directive.stop.bare :=
  .bare _ fun _ _ _ _ => .seq (gobble_yields (.pure ⟨⟨_, rfl, rfl⟩, rfl⟩))

/-- A directive with one argument that adds a node. -/
theorem ReadsNode.ofArgument (w : Directive) (node : Expr → Position → Node)
    (hw : ∀ inner position d, directive inner position none d w = (do
      let e ← argument inner w
      let d ← Read.gobble none d
      return .goOn (d.add (node e position))))
    (hnode : ∀ e e' p p', e.unplaced lit = e'.unplaced lit →
      (node e p).unplaced lit = (node e' p').unplaced lit)
    {e : Expr} (p : Position) (he : ArgumentText lit e cs) :
    ReadsNode lit (node e p) (w.withArguments cs) := by
  rw [← List.append_nil (Directive.withArguments _ _)]
  refine .withArguments _ cs [] fun n position d tail hlength => ?_
  rw [List.length_append, List.length_cons] at hlength
  rw [hw]
  refine .seq ((argument_yields he (by omega) w).mono fun e' left he' => ?_)
  obtain ⟨he', rfl⟩ := he'
  exact .seq (gobble_yields (.pure ⟨⟨_, rfl, hnode _ _ _ _ he'⟩, rfl⟩))

theorem ReadsNode.parse {name : Expr} {position : Position} (hn : ArgumentText lit name cs) :
    ReadsNode lit (.parse name position) (Directive.parse.withArguments cs) :=
  .ofArgument .parse Node.parse (fun _ _ _ => rfl)
    (fun e e' p p' h => by simp only [Node.unplaced, h]) position hn

theorem ReadsNode.insert {name : Expr} {position : Position} (hn : ArgumentText lit name cs) :
    ReadsNode lit (.insert name position) (Directive.insert.withArguments cs) :=
  .ofArgument .insert Node.insert (fun _ _ _ => rfl)
    (fun e e' p p' h => by simp only [Node.unplaced, h]) position hn

theorem ReadsNode.assign {target : Reference} {value : Expr} {position : Position}
    (ht : ReferenceText lit target cs) (hv : ArgumentText lit value ds) :
    ReadsNode lit (.assign target value position)
      (Directive.assign.withArguments (cs ++ ' ' :: '=' :: ' ' :: ds)) := by
  rw [← List.append_nil (Directive.withArguments _ _)]
  refine .withArguments _ _ [] fun n position d tail hlength => ?_
  simp only [List.length_append, List.length_cons] at hlength
  rw [List.append_assoc]
  refine .seq ((assignment_yields ht hv (by omega) (by omega)).mono fun p left hp => ?_)
  obtain ⟨⟨htarget, hvalue⟩, rfl⟩ := hp
  refine .seq (gobble_yields (.pure ⟨⟨_, rfl, ?_⟩, rfl⟩))
  simp only [Node.unplaced, htarget, hvalue]

/-! ### Blocks inside directives -/

theorem Directive.begins_withArguments (w : Directive) (cs : List Char) :
    BeginsNode (w.withArguments cs) :=
  ⟨'#', _, rfl, rfl⟩

theorem Directive.begins_bare (w : Directive) : BeginsNode w.bare := ⟨'#', _, rfl, rfl⟩

/-- A directive without arguments that ends a block. -/
theorem ReadsEnding.bare (w : Directive) (ending : Position → Ending)
    (hw : ∀ inner position d, directive inner position none d w = (do
      let d ← Read.gobble none d
      return .done ⟨d.finish, ending position⟩))
    (hending : ∀ p p', (ending p).unplaced lit = (ending p').unplaced lit) (p : Position) :
    ReadsEnding lit (ending p) w.bare where
  begins := w.begins_bare
  reads n limit d tail hn hlimit := by
    simp only [List.length_append, Directive.length_bare] at hlimit
    obtain ⟨limit, rfl⟩ : ∃ l, limit = l + 2 := ⟨limit - 2, by omega⟩
    refine bare_yields w fun position => ?_
    rw [hw]
    exact .seq (gobble_yields (.pure ⟨⟨rfl, hending _ _⟩, rfl⟩))

theorem ReadsEnding.finish (p : Position) :
    ReadsEnding lit (.finish p) Directive.finish.bare :=
  .bare .finish Ending.finish (fun _ _ _ => rfl) (fun _ _ => rfl) p

theorem ReadsEnding.otherwise (p : Position) :
    ReadsEnding lit (.otherwise p) Directive.otherwise.bare :=
  .bare .otherwise Ending.otherwise (fun _ _ _ => rfl) (fun _ _ => rfl) p

theorem ReadsEnding.elseIf {condition : Expr} (hc : ArgumentText lit condition cs)
    (p : Position) : ReadsEnding lit (.elseIf condition p) (Directive.elseIf.withArguments cs) where
  begins := Directive.begins_withArguments _ _
  reads n limit d tail hn hlimit := by
    simp only [List.length_append, Directive.length_withArguments] at hn hlimit
    obtain ⟨limit, rfl⟩ : ∃ l, limit = l + 2 := ⟨limit - 2, by omega⟩
    refine withArguments_yields _ fun position => ?_
    refine .seq ((argument_yields hc (by omega) _).mono fun condition' left hc' => ?_)
    obtain ⟨hc', rfl⟩ := hc'
    refine .seq (gobble_yields (.pure ⟨⟨rfl, ?_⟩, rfl⟩))
    simp only [Ending.unplaced, hc']

section

variable {followed : Bool} {ns : List Node} {node : Node}

/-- A block inside a directive is read with its ending. -/
theorem ReadsNodes.block (h : ReadsNodes lit true ns cs) {ending : Ending}
    (he : ReadsEnding lit ending ds) (hn : (cs ++ (ds ++ tail)).length ≤ n) :
    Yields (Inner.upTo n).block (cs ++ (ds ++ tail))
      fun b left => (b.nodes.map (Node.unplaced lit) = ns.map (Node.unplaced lit) ∧
        b.ending.unplaced lit = ending.unplaced lit) ∧ left = tail := by
  obtain ⟨c, rest, hds, hc⟩ := he.begins
  obtain ⟨m, rfl⟩ : ∃ m, n = m + 1 := ⟨n - 1, by
    rw [hds] at hn
    simp only [List.length_append, List.length_cons] at hn
    omega⟩
  have hlimit : (cs ++ (ds ++ tail)).length ≤ (Inner.upTo m).limit + 1 := by
    rwa [Inner.limit_upTo]
  have hgoesOn : GoesOn true (ds ++ tail) := ⟨c, rest ++ tail, by rw [hds]; rfl, hc⟩
  have hlength : (ds ++ tail).length ≤ m + 1 := by
    rw [List.length_append] at hn
    omega
  refine h hn hlimit hgoesOn (fun hd => absurd rfl hd) fun d' limit' hl hd' => ?_
  refine (he.reads hlength hl).mono fun b left hb => ?_
  obtain ⟨⟨hnodes, hending⟩, rfl⟩ := hb
  refine ⟨⟨?_, hending⟩, rfl⟩
  rw [hnodes, hd']
  rfl

theorem ReadsRest.finish : ReadsRest lit [] none Directive.finish.bare where
  begins := Directive.begins_bare _
  reads n limit tail ds condition condition' ns opened hns hc hn hlimit := by
    simp only [List.length_append, Directive.length_bare] at hlimit
    obtain ⟨limit, rfl⟩ := Nat.exists_eq_add_one_of_ne_zero (by omega : limit ≠ 0)
    refine .seq ((hns.block (.finish .start) hn).mono fun b left hb => ?_)
    obtain ⟨⟨hnodes, hending⟩, rfl⟩ := hb
    obtain ⟨nodes, ending⟩ := b
    cases ending with
    | finish position =>
      refine .pure ⟨?_, rfl⟩
      simp only [branchesUnplaced, List.map_cons, List.map_nil, hc, hnodes]
    | _ => cases hending

theorem ReadsRest.otherwise (h : ReadsNodes lit true ns cs) :
    ReadsRest lit [] (some ns) (Directive.otherwise.bare ++ (cs ++ Directive.finish.bare)) where
  begins := ⟨'#', _, rfl, rfl⟩
  reads n limit tail ds condition condition' ns' opened hns hc hn hlimit := by
    rw [List.append_assoc, List.append_assoc] at hn hlimit ⊢
    simp only [List.length_append, Directive.length_bare] at hlimit
    obtain ⟨limit, rfl⟩ := Nat.exists_eq_add_one_of_ne_zero (by omega : limit ≠ 0)
    refine .seq ((hns.block (.otherwise .start) hn).mono fun b left hb => ?_)
    obtain ⟨⟨hnodes, hending⟩, rfl⟩ := hb
    obtain ⟨nodes, ending⟩ := b
    cases ending with
    | otherwise position =>
      have hlength : (cs ++ (Directive.finish.bare ++ tail)).length ≤ n := by
        rw [List.length_append, List.length_append] at hn
        omega
      refine .seq ((h.block (.finish .start) hlength).mono fun b left hb => ?_)
      obtain ⟨⟨hnodes', hending'⟩, rfl⟩ := hb
      obtain ⟨nodes', ending'⟩ := b
      cases ending' with
      | finish position =>
        refine .pure ⟨?_, rfl⟩
        simp only [branchesUnplaced, List.map_cons, List.map_nil, Option.map_some, hc, hnodes,
          hnodes']
      | _ => cases hending'
    | _ => cases hending

theorem ReadsRest.elseIf {condition : Expr} {branches : List (Expr × List Node)}
    {otherwise : Option (List Node)} (hc : ArgumentText lit condition cs)
    (h : ReadsNodes lit true ns ds) (hrest : ReadsRest lit branches otherwise fs) :
    ReadsRest lit ((condition, ns) :: branches) otherwise
      (Directive.elseIf.withArguments cs ++ (ds ++ fs)) where
  begins := ⟨'#', _, rfl, rfl⟩
  reads n limit tail ds' first first' ns' opened hns hfirst hn hlimit := by
    rw [List.append_assoc, List.append_assoc] at hn hlimit ⊢
    simp only [List.length_append, Directive.length_withArguments] at hlimit
    obtain ⟨limit, rfl⟩ := Nat.exists_eq_add_one_of_ne_zero (by omega : limit ≠ 0)
    refine .seq ((hns.block (.elseIf hc .start) hn).mono fun b left hb => ?_)
    obtain ⟨⟨hnodes, hending⟩, rfl⟩ := hb
    obtain ⟨nodes, ending⟩ := b
    cases ending with
    | elseIf next position =>
      have hlength : (ds ++ (fs ++ tail)).length ≤ n := by
        rw [List.length_append, List.length_append] at hn
        omega
      have hlimit' : (ds ++ (fs ++ tail)).length ≤ limit := by
        simp only [List.length_append]
        omega
      have hnext := (Ending.elseIf.inj hending).1
      refine .seq ((hrest.reads h hnext hlength hlimit').mono fun p left hp => ?_)
      obtain ⟨more, last⟩ := p
      obtain ⟨hp, rfl⟩ := hp
      obtain ⟨hmore, hlast⟩ := Prod.mk.inj hp
      refine .pure ⟨?_, rfl⟩
      simp only [List.map_cons] at hmore
      simp only [branchesUnplaced, List.map_cons, hfirst, hnodes, hmore, hlast]
    | _ => cases hending

theorem ReadsNode.conditional {condition : Expr} {branches : List (Expr × List Node)}
    {otherwise : Option (List Node)} {position : Position} (hc : ArgumentText lit condition cs)
    (h : ReadsNodes lit true ns ds) (hrest : ReadsRest lit branches otherwise fs) :
    ReadsNode lit (.conditional ((condition, ns) :: branches) otherwise position)
      (Directive.ifThen.withArguments cs ++ (ds ++ fs)) := by
  refine .withArguments _ cs _ fun n position d tail hn => ?_
  rw [List.append_assoc] at hn ⊢
  simp only [List.length_append, List.length_cons] at hn
  refine .seq ((argument_yields hc (by omega) _).mono fun condition' left hc' => ?_)
  obtain ⟨hc', rfl⟩ := hc'
  have hlength : (ds ++ (fs ++ tail)).length ≤ n := by
    simp only [List.length_append]
    omega
  refine .seq (gobble_yields (.seq ?_))
  rw [Inner.limit_upTo]
  refine (hrest.reads h hc' hlength (Nat.le_succ_of_le hlength)).mono fun p left hp => ?_
  obtain ⟨hp, rfl⟩ := hp
  obtain ⟨hbranches, hlast⟩ := Prod.mk.inj hp
  refine .pure ⟨⟨_, rfl, ?_⟩, rfl⟩
  rw [unplaced_conditional, unplaced_conditional, hbranches, hlast]

theorem ReadsNode.forEach {name : String} {items : Expr} {position : Position}
    (hname : IsName name) (hi : ArgumentText lit items cs) (h : ReadsNodes lit true ns ds) :
    ReadsNode lit (.forEach name items ns position)
      (Directive.forEach.withArguments ('$' :: (name.toList ++ ' ' :: 'i' :: 'n' :: ' ' :: cs)) ++
        (ds ++ Directive.finish.bare)) := by
  refine .withArguments _ _ _ fun n position d tail hn => ?_
  rw [List.append_assoc] at hn ⊢
  simp only [List.length_append, List.length_cons] at hn
  simp only [List.cons_append, List.append_assoc]
  refine .seq ((loopHead_yields hname hi (by omega)).mono fun p left hp => ?_)
  obtain ⟨⟨rfl, hitems⟩, rfl⟩ := hp
  have hlength : (ds ++ (Directive.finish.bare ++ tail)).length ≤ n := by
    simp only [List.length_append]
    omega
  refine .seq (gobble_yields (.seq (.seq ?_)))
  refine (h.block (.finish .start) hlength).mono fun b left hb => ?_
  obtain ⟨⟨hnodes, hending⟩, rfl⟩ := hb
  obtain ⟨nodes, ending⟩ := b
  cases ending with
  | finish position =>
    refine .pure (.pure ⟨⟨_, rfl, ?_⟩, rfl⟩)
    simp only [Node.unplaced, unplacedNodes_eq_map, hitems, hnodes]
  | _ => cases hending

/-! ### Blocks -/

theorem Draft.finish_add (d : Draft) (node : Node) : (d.add node).finish = d.finish ++ [node] := by
  rw [finish, finish, add]
  exact List.reverse_cons

theorem Draft.finish_append {d : Draft} (hd : d.text = []) {cs : List Char} (hcs : cs ≠ []) :
    (d.append cs).finish = d.finish ++ [.text (String.ofList cs)] := by
  have hclosed : d.closed = d.nodes := by
    rw [closed, hd]
    rfl
  have hnot : ¬(cs.reverse ++ d.text).isEmpty = true := by
    rw [hd, List.append_nil, List.isEmpty_reverse, List.isEmpty_iff]
    exact hcs
  rw [finish, finish, hclosed, closed, append, if_neg hnot, hd, List.append_nil,
    List.reverse_reverse, List.reverse_cons]

theorem ReadsNodes.nil : ReadsNodes lit followed [] [] := by
  intro n limit d tail Q _ hlimit _ _ h
  exact h d limit hlimit (List.append_nil _).symm

theorem ReadsNodes.cons (hnode : ReadsNode lit node cs) (h : ReadsNodes lit followed ns ds) :
    ReadsNodes lit followed (node :: ns) (cs ++ ds) := by
  intro n limit d tail Q hn hlimit htail _ hQ
  rw [List.append_assoc] at hn hlimit ⊢
  refine hnode hn hlimit fun node' limit' hnode' hl => ?_
  have hlength : (ds ++ tail).length ≤ n + 1 := by
    rw [List.length_append] at hn
    omega
  refine h hlength hl htail (fun hd => absurd rfl hd) fun d' limit'' hl' hd' => hQ d' limit'' hl' ?_
  rw [hd', Draft.finish_add, List.map_append, List.append_assoc, List.map_cons, List.map_cons,
    hnode']
  rfl

theorem ReadsNodes.text {s : String} (hs : s ≠ "") (hhead : ∀ t, ns.head? ≠ some (.text t))
    (hbegins : if ns.isEmpty then cs = [] else BeginsNode cs) (h : ReadsNodes lit followed ns cs) :
    ReadsNodes lit followed (.text s :: ns)
      (escaped (followed || !ns.isEmpty) 0 s.toList ++ cs) := by
  intro n limit d tail Q hn hlimit htail hd hQ
  rw [List.append_assoc] at hn hlimit ⊢
  have hempty : d.text = [] := by
    by_contra hne
    exact hd hne s rfl
  have hcs : s.toList ≠ [] := fun hnil => hs (String.toList_eq_nil_iff.mp hnil)
  have hgoesOn : GoesOn (followed || !ns.isEmpty) (cs ++ tail) := by
    cases hns : ns.isEmpty with
    | true =>
      rw [hns, if_pos rfl] at hbegins
      rw [hbegins, Bool.not_true, Bool.or_false]
      exact htail
    | false =>
      rw [hns, if_neg Bool.false_ne_true] at hbegins
      obtain ⟨c, rest, rfl, hc⟩ := hbegins
      rw [Bool.not_false, Bool.or_true]
      exact ⟨c, rest ++ tail, rfl, hc⟩
  have hlength : (cs ++ tail).length ≤ n + 1 := by
    rw [List.length_append] at hn
    omega
  refine escaped_yields hgoesOn s.toList 0 hlimit fun limit' hl => ?_
  refine h hlength hl htail (fun _ => hhead) fun d' limit'' hl' hd' => hQ d' limit'' hl' ?_
  have hfinish := Draft.finish_append hempty hcs
  rw [String.ofList_toList] at hfinish
  rw [hd']
  simp only [List.replicate_zero, List.nil_append, hfinish, List.map_append, List.map_cons,
    List.map_nil, List.append_assoc, List.cons_append, Node.unplaced]

end

end GatewayMapping.Template
