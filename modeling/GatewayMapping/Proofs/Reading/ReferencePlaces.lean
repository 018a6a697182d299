import Mathlib
import GatewayMapping.Proofs.Reading.Places
import GatewayMapping.Proofs.Reading.Relocation

/-!
# The places of references

Every reference that is read has the place where it stands, except that a double quote that is
written twice inside double quotes counts once (`Inner.upTo_finds`). So the place is the one where
the `$` of the reference stands exactly if no double quote comes before it in its line of any of
the quotes that it stands in (`parse_reference_position`).

## Main definitions

* `AllStand`: references stand in a text.
* `Inner.Finds`: readers of expressions and blocks whose references stand in the text.

## Main results

* `parse_reference_position`: the places of the references of a source.
-/

namespace GatewayMapping.Template

/-! ### References of parts of the syntax -/

/-- The references stand in the text, which begins at `base`, and the names in them are words. -/
def AllStand (text : List Char) (base : Position) (rs : List Reference) : Prop :=
  ∀ r ∈ rs, r.StandsIn text base ∧ r.HasWords

section

variable {text : List Char} {base : Position} {rs rs' : List Reference}

theorem allStand_nil : AllStand text base [] := nofun

theorem allStand_append :
    AllStand text base (rs ++ rs') ↔ AllStand text base rs ∧ AllStand text base rs' :=
  List.forall_mem_append

theorem allStand_nodes {ns : List Node} (h : ∀ n ∈ ns, AllStand text base n.references) :
    AllStand text base (nodesReferences ns) := by
  intro r hr
  obtain ⟨n, hn, hr⟩ := mem_nodesReferences.mp hr
  exact h n hn r hr

theorem allStand_exprs {es : List Expr} (h : ∀ e ∈ es, AllStand text base e.references) :
    AllStand text base (exprsReferences es) := by
  intro r hr
  obtain ⟨e, he, hr⟩ := mem_exprsReferences.mp hr
  exact h e he r hr

theorem allStand_entries {entries : List (Expr × Expr)}
    (h : ∀ e ∈ entries, AllStand text base e.1.references ∧ AllStand text base e.2.references) :
    AllStand text base (entriesReferences entries) := by
  intro r hr
  obtain ⟨e, he, hr⟩ := mem_entriesReferences.mp hr
  exact hr.elim ((h e he).1 r) ((h e he).2 r)

end

/-- The references of the end of a block. -/
def Ending.references : Ending → List Reference
  | .elseIf condition _ => condition.references
  | _ => []

/-- The references of the nodes of a block and of its end stand in the text. -/
structure Block.AllStand (text : List Char) (base : Position) (b : Block) : Prop where
  nodes : ∀ n ∈ b.nodes, Template.AllStand text base n.references
  ending : Template.AllStand text base b.ending.references

theorem Block.nodes_of_whole {b : Block} {ns : List Node} (h : b.whole = .ok ns) :
    ns = b.nodes := by
  obtain ⟨nodes, ending⟩ := b
  cases ending <;> cases h
  rfl

/-- The references of a draft stand in the text. -/
def Draft.AllStand (text : List Char) (base : Position) (d : Draft) : Prop :=
  ∀ n ∈ d.nodes, Template.AllStand text base n.references

namespace Draft.AllStand

variable {text : List Char} {base : Position} {d : Draft}

theorem empty : AllStand text base .empty := nofun

theorem closed (h : AllStand text base d) :
    ∀ n ∈ d.closed, Template.AllStand text base n.references := by
  rw [Draft.closed]
  split
  · exact h
  · exact List.forall_mem_cons.mpr ⟨allStand_nil, h⟩

theorem add (h : AllStand text base d) {node : Node}
    (hnode : Template.AllStand text base node.references) : AllStand text base (d.add node) :=
  List.forall_mem_cons.mpr ⟨hnode, h.closed⟩

theorem finish (h : AllStand text base d) :
    ∀ n ∈ d.finish, Template.AllStand text base n.references :=
  fun n hn => h.closed n (List.mem_reverse.mp hn)

end Draft.AllStand

/-- A step of a block whose references stand in the text. -/
def Grammar.Step.AllStand (text : List Char) (base : Position) : Grammar.Step → Prop
  | .goOn d => d.AllStand text base
  | .done b => b.AllStand text base

/-- What the readers find stands in the text that they read. -/
structure Inner.Finds (inner : Inner) : Prop where
  shrinks : inner.Shrinks
  expr : ∀ text base, Read.Finds text base (fun e => AllStand text base e.references) inner.expr
  block : ∀ text base, Read.Finds text base (Block.AllStand text base) inner.block

namespace Grammar

open Read (Finds Stays bind_eq_ok_iff)

variable {text : List Char} {base : Position}

/-! ### Expressions -/

theorem number_finds :
    Finds text base (fun e => AllStand text base e.references) number := by
  have hvalue (whole : List Char) (fraction : Option (List Char)) :
      AllStand text base (numberValue whole fraction).references := by
    unfold numberValue
    dsimp only
    split
    · exact allStand_nil
    · split
      · exact allStand_nil
      · exact allStand_nil
  refine (Finds.takeWhile _).seq fun whole => Finds.rest.seq fun cs => ?_
  split
  · exact .ite ((Finds.skip 1).seq fun _ => (Finds.takeWhile _).seq fun _ => .pure (hvalue _ _))
      (.pure (hvalue _ _))
  · exact .pure (hvalue _ _)

theorem constant_finds :
    Finds text base (fun e => AllStand text base e.references) constant := by
  refine (Finds.wholeWord _).seq fun _ => .ite (.pure allStand_nil) ?_
  refine (Finds.wholeWord _).seq fun _ => .ite (.pure allStand_nil) ?_
  refine (Finds.wholeWord _).seq fun _ => .ite (.pure allStand_nil) ?_
  exact Finds.here.seq fun _ => (Finds.takeWhile _).seq fun _ => .failAt _ _

theorem unaryOp?_stays : Stays text base unaryOp? := by
  refine Finds.rest.seq fun cs => ?_
  split
  · exact .pure trivial
  · exact (Finds.skip 1).seq fun _ => .pure trivial
  · exact (Finds.wholeWord _).seq fun _ =>
      .ite (.pure trivial) (.ite ((Finds.skip 1).seq fun _ => .pure trivial) (.pure trivial))

theorem binaryOp?_stays : (ops : List BinaryOp) → Stays text base (binaryOp? ops)
  | [] => .pure trivial
  | op :: ops => by
      refine (Finds.sign op.symbol).seq fun _ => .ite (.pure trivial) ?_
      cases op.word? with
      | some word =>
        exact (Finds.wholeWord word).seq fun _ => .ite (.pure trivial) (binaryOp?_stays ops)
      | none => exact binaryOp?_stays ops

section

variable {inner : Inner} (h : inner.Finds)
include h

/-- What stands in the content of double quotes stands in the text with the quotes. -/
theorem doubleQuoted_finds {cur cur' : Cursor} {e : Expr} (hcur : cur.Within text base)
    (hquote : cur.rest.head? = some '"') (hr : doubleQuoted inner cur = .ok (e, cur')) :
    cur'.Within text base ∧ AllStand text base e.references := by
  have hstays : Stays text base (doubleQuoted inner) :=
    Finds.here.seq fun _ => (Finds.quoted '"').seq fun _ => .ite
      ((Finds.lift _).seq fun _ => (Finds.lift _).seq fun _ => .pure trivial) (.pure trivial)
  refine ⟨(hstays cur e cur' hcur hr).1, ?_⟩
  obtain ⟨_, _, ⟨⟩, hr⟩ := bind_eq_ok_iff.mp hr
  obtain ⟨content, cur₁, hcontent, hr⟩ := bind_eq_ok_iff.mp hr
  split at hr
  · obtain ⟨⟨b, _⟩, _, hblock, hr⟩ := bind_eq_ok_iff.mp hr
    obtain ⟨ns, _, hwhole, hr⟩ := bind_eq_ok_iff.mp hr
    cases hr
    obtain ⟨rest, hrest⟩ := List.head?_eq_some_iff.mp hquote
    obtain ⟨front, htext, hposition⟩ := hcur
    obtain ⟨n, hquoted⟩ := Read.quoted_eq_ok hcontent
    have hb := (h.block _ _ _ b _ .ofChars (Read.lift_eq_ok hblock).1).2
    rw [Block.nodes_of_whole (Read.lift_eq_ok hwhole).1]
    rw [hrest, List.tail_cons] at hquoted
    rw [hposition] at hb
    rw [htext, hrest]
    exact allStand_nodes fun n hn r hr => (hb.nodes n hn r hr).imp_left fun hr => hr.quoted hquoted
  · cases hr
    exact allStand_nil

theorem list_finds : Finds text base (fun e => AllStand text base e.references) (list inner) := by
  refine (Finds.skip 1).seq fun _ => (Finds.skipWhile _).seq fun _ => Finds.peek?.seq fun _ =>
    .ite ((Finds.skip 1).seq fun _ => .pure allStand_nil) ?_
  refine (h.expr _ _).bind fun first hfirst => (Finds.skipWhile _).seq fun _ =>
    (Finds.sign _).seq fun _ => .ite ?_ ?_
  · exact (h.expr _ _).bind fun last hlast => (Finds.skipWhile _).seq fun _ =>
      (Finds.char _ _).seq fun _ => .pure (allStand_append.mpr ⟨hfirst, hlast⟩)
  · exact (Finds.itemsAfter (h.expr _ _) _ _ _).bind fun items hitems =>
      .pure (allStand_exprs (List.forall_mem_cons.mpr ⟨hfirst, hitems⟩))

theorem entry_finds : Finds text base
    (fun e => AllStand text base e.1.references ∧ AllStand text base e.2.references)
    (entry inner) :=
  (h.expr _ _).bind fun _ hkey => (Finds.skipWhile _).seq fun _ => (Finds.char _ _).seq fun _ =>
    (h.expr _ _).bind fun _ hvalue => .pure ⟨hkey, hvalue⟩

theorem map_finds : Finds text base (fun e => AllStand text base e.references) (map inner) :=
  (Finds.skip 1).seq fun _ => (Finds.items (entry_finds h) _ _ _).bind fun _ hentries =>
    .pure (allStand_entries hentries)

theorem segments_finds : (limit : Nat) →
    Finds text base (fun ss => AllStand text base (segmentsReferences ss) ∧ WordPath ss)
      (segments inner limit)
  | 0 => .pure ⟨allStand_nil, nofun⟩
  | limit + 1 => by
      have hmore {s : Segment} (hs : AllStand text base s.references)
          (hname : ∀ name ∈ s.name?, IsWord name) :
          Finds text base (fun ss => AllStand text base (segmentsReferences ss) ∧ WordPath ss)
            (return s :: (← segments inner limit)) :=
        (segments_finds limit).bind fun _ hss =>
          .pure ⟨allStand_append.mpr ⟨hs, hss.1⟩, List.forall_mem_cons.mpr ⟨hname, hss.2⟩⟩
      refine Finds.rest.seq fun cs => ?_
      split
      · refine .ite ((Finds.skip 1).seq fun _ => Finds.name.bind fun name hname =>
          Finds.peek?.seq fun _ => .ite ?_ (hmore allStand_nil ?_)) (.pure ⟨allStand_nil, nofun⟩)
        · refine (Finds.skip 1).seq fun _ => (Finds.items (h.expr _ _) _ _ _).bind fun _ hargs =>
            hmore (allStand_exprs hargs) ?_
          rintro _ ⟨⟩
          exact hname
        · rintro _ ⟨⟩
          exact hname
      · exact (Finds.skip 1).seq fun _ => (h.expr _ _).bind fun _ hi =>
          (Finds.skipWhile _).seq fun _ => (Finds.char _ _).seq fun _ => hmore hi nofun
      · exact .pure ⟨allStand_nil, nofun⟩

omit h in
/-- The literal of a reference is what was passed over since its `$`. -/
theorem upTo_append {start cur : Cursor} {n : Nat} (hn : n ≠ 0)
    (hdollar : start.rest.head? = some '$') (h : cur.rest <:+ (start.skip n).rest) :
    start.upTo cur ++ cur.rest = start.rest ∧ (start.upTo cur).head? = some '$' := by
  obtain ⟨cs, hcs⟩ := List.head?_eq_some_iff.mp hdollar
  obtain ⟨k, rfl⟩ := Nat.exists_eq_add_one_of_ne_zero hn
  rw [Cursor.rest_skip, hcs, List.drop_succ_cons] at h
  obtain ⟨front, rfl⟩ := h.trans (List.drop_suffix k cs)
  have hlength : ('$' :: (front ++ cur.rest)).length - cur.rest.length = front.length + 1 := by
    rw [List.length_cons, List.length_append]
    omega
  rw [Cursor.upTo, hcs, hlength, List.take_succ_cons, List.take_left]
  exact ⟨rfl, rfl⟩

/-- A reference stands where it was begun to be read, at its `$`. -/
theorem referenceAfter_finds (s : Sigil) {cur cur' : Cursor} {r : Reference}
    (hcur : cur.Within text base) (hdollar : cur.rest.head? = some '$')
    (hr : referenceAfter inner s cur = .ok (r, cur')) :
    cur'.Within text base ∧ AllStand text base r.references := by
  have hlength : s.length ≠ 0 := by rw [Sigil.length]; omega
  obtain ⟨_, _, ⟨⟩, hr⟩ := bind_eq_ok_iff.mp hr
  obtain ⟨_, _, ⟨⟩, hr⟩ := bind_eq_ok_iff.mp hr
  obtain ⟨name, cur₁, hname, hr⟩ := bind_eq_ok_iff.mp hr
  obtain ⟨path, cur₂, hpath, hr⟩ := bind_eq_ok_iff.mp hr
  obtain ⟨hcur₁, hword⟩ := Finds.name _ name cur₁ (hcur.skip s.length) hname
  obtain ⟨hcur₂, hpath', hwords⟩ := segments_finds h _ cur₁ path cur₂ hcur₁ hpath
  have hsuffix : cur₂.rest <:+ (cur.skip s.length).rest :=
    (segments_shrinks h.shrinks _ _ _ _ hpath).trans (Read.Shrinks.name _ _ _ hname)
  have hstands {later : Cursor} (hl : later.rest <:+ cur₂.rest) (hlater : later.Within text base) :
      later.Within text base ∧ AllStand text base (Reference.mk name path s.quiet
        (String.ofList (cur.upTo later)) cur.position).references := by
    obtain ⟨happend, hhead⟩ := upTo_append hlength hdollar (hl.trans hsuffix)
    obtain ⟨front, htext, hposition⟩ := hcur
    refine ⟨hlater, List.forall_mem_cons.mpr ⟨⟨⟨front, [], later.rest, ?_, ?_, hposition.symm⟩,
      hword, hwords⟩, hpath'⟩⟩
    · rw [htext, Reference.literal, String.toList_ofList, happend]
      exact .here
    · rw [Reference.literal, String.toList_ofList, hhead]
  split at hr
  · obtain ⟨_, cur₃, hchar, hr⟩ := bind_eq_ok_iff.mp hr
    obtain ⟨_, _, ⟨⟩, hr⟩ := bind_eq_ok_iff.mp hr
    cases hr
    exact hstands (Read.Shrinks.char _ _ _ _ _ hchar) (Finds.char _ _ _ _ _ hcur₂ hchar).1
  · obtain ⟨_, _, ⟨⟩, hr⟩ := bind_eq_ok_iff.mp hr
    cases hr
    exact hstands List.suffix_rfl hcur₂

theorem reference?_finds {cur cur' : Cursor} {r? : Option Reference}
    (hcur : cur.Within text base) (hdollar : cur.rest.head? = some '$')
    (hr : reference? inner cur = .ok (r?, cur')) :
    cur'.Within text base ∧ ∀ r ∈ r?, AllStand text base r.references := by
  obtain ⟨_, _, ⟨⟩, hr⟩ := bind_eq_ok_iff.mp hr
  cases hs : sigil? cur.rest.tail with
  | none =>
    rw [hs] at hr
    cases hr
    exact ⟨hcur, nofun⟩
  | some s =>
    rw [hs] at hr
    obtain ⟨r, cur₁, hr, heq⟩ := bind_eq_ok_iff.mp hr
    cases heq
    obtain ⟨hcur', hrefs⟩ := referenceAfter_finds h s hcur hdollar hr
    exact ⟨hcur', by rintro _ ⟨⟩; exact hrefs⟩

theorem reference_finds :
    Finds text base (fun r => AllStand text base r.references) (reference inner) := by
  intro cur r cur' hcur hr
  obtain ⟨cs, s, hrest, -, hr⟩ := reference_eq_ok_iff.mp hr
  exact referenceAfter_finds h s hcur (by rw [hrest]; rfl) hr

theorem primary_finds :
    Finds text base (fun e => AllStand text base e.references) (primary inner) := by
  refine (Finds.skipWhile _).seq fun _ => .peek?_bind fun c? cur e cur' hcur hhead hr => ?_
  have hother {x : Read Expr} (hx : Finds text base (fun e => AllStand text base e.references) x)
      (hr : x cur = .ok (e, cur')) : cur'.Within text base ∧ AllStand text base e.references :=
    hx cur e cur' hcur hr
  split at hr
  · cases hr
  · exact hother ((Finds.skip 1).seq fun _ => (h.expr _ _).bind fun _ he =>
      (Finds.skipWhile _).seq fun _ => (Finds.char _ _).seq fun _ => .pure he) hr
  · exact hother ((Finds.quoted _).seq fun _ => .pure allStand_nil) hr
  · exact doubleQuoted_finds h hcur hhead hr
  · exact hother (list_finds h) hr
  · exact hother (map_finds h) hr
  · exact hother ((reference_finds h).bind fun r hr => .pure (by exact hr)) hr
  · exact hother (.ite number_finds (.ite constant_finds (.unexpected _))) hr

theorem unary_finds : (limit : Nat) →
    Finds text base (fun e => AllStand text base e.references) (unary inner limit)
  | 0 => primary_finds h
  | limit + 1 => by
      refine (Finds.skipWhile _).seq fun _ => Finds.here.seq fun _ =>
        unaryOp?_stays.seq fun op? => ?_
      cases op? with
      | some op => exact (unary_finds limit).bind fun _ he => .pure he
      | none => exact primary_finds h

omit h in
theorem chain_finds {operand : Read Expr}
    (ho : Finds text base (fun e => AllStand text base e.references) operand)
    (ops : List BinaryOp) : (limit : Nat) → (left : Expr) → AllStand text base left.references →
      Finds text base (fun e => AllStand text base e.references) (chain operand ops limit left)
  | 0, _, hleft => .pure hleft
  | limit + 1, left, hleft => by
      refine (Finds.skipWhile _).seq fun _ => Finds.here.seq fun position =>
        (binaryOp?_stays ops).seq fun op? => ?_
      cases op? with
      | some op =>
        exact ho.bind fun right hright =>
          chain_finds ho ops limit _ (allStand_append.mpr ⟨hleft, hright⟩)
      | none => exact .pure hleft

theorem levels_find (limit : Nat) : (levels : List (List BinaryOp)) →
    Finds text base (fun e => AllStand text base e.references)
      (levels.foldr (level limit) (unary inner limit))
  | [] => unary_finds h limit
  | ops :: levels =>
      (levels_find limit levels).bind fun left hleft =>
        chain_finds (levels_find limit levels) ops limit left hleft

theorem expr_finds : Finds text base (fun e => AllStand text base e.references) (expr inner) :=
  levels_find h _ levels

/-! ### Parts of blocks -/

omit h in
theorem gobble_finds {d : Draft} (hd : d.AllStand text base) (indent : Option Nat) :
    Finds text base (Draft.AllStand text base) (Read.gobble indent d) := by
  refine Finds.rest.seq fun cs => ?_
  split
  · exact (Finds.skip _).seq fun _ => .pure hd
  · exact .pure hd

omit h in
theorem escape_finds {d : Draft} (hd : d.AllStand text base) :
    Finds text base (Draft.AllStand text base) (escape d) := by
  refine (Finds.takeWhile _).seq fun _ => Finds.peek?.seq fun c? => ?_
  cases c? with
  | some c =>
    exact .ite (.ite ((Finds.skip 1).seq fun _ => .pure hd) (.pure hd)) (.pure hd)
  | none => exact .pure hd

omit h in
theorem lineComment_finds {d : Draft} (hd : d.AllStand text base) :
    Finds text base (Draft.AllStand text base) (lineComment d) := by
  refine Finds.get.seq fun cur => (Finds.skipWhile _).seq fun _ => (Finds.skip 1).seq fun _ => ?_
  split
  · exact .pure hd
  · exact .pure hd

omit h in
theorem blockComment_finds {d : Draft} (hd : d.AllStand text base) :
    Finds text base (Draft.AllStand text base) (blockComment d) := by
  refine Finds.get.seq fun _ => Finds.rest.seq fun cs => ?_
  cases Text.indexOf? ['*', '#'] (cs.drop 2) with
  | some n => exact (Finds.skip _).seq fun _ => gobble_finds hd _
  | none => exact .fail _

omit h in
theorem verbatim_finds {d : Draft} (hd : d.AllStand text base) :
    Finds text base (Draft.AllStand text base) (verbatim d) := by
  refine Finds.rest.seq fun cs => ?_
  dsimp only
  cases Text.indexOf? [']', ']', '#'] (cs.drop 3) with
  | some n => exact (Finds.skip _).seq fun _ => .pure hd
  | none => exact .fail _

omit h in
theorem openParen_stays (d : Directive) : Stays text base (openParen d) :=
  (Finds.skipWhile _).seq fun _ => .char _ _

omit h in
theorem closeParen_stays : Stays text base closeParen :=
  (Finds.skipWhile _).seq fun _ => .char _ _

theorem argument_finds (d : Directive) :
    Finds text base (fun e => AllStand text base e.references) (argument inner d) :=
  (openParen_stays d).seq fun _ => (h.expr _ _).bind fun _ he => closeParen_stays.seq fun _ =>
    .pure he

theorem assignment_finds : Finds text base
    (fun p => AllStand text base p.1.references ∧ AllStand text base p.2.references)
    (assignment inner) := by
  refine (openParen_stays _).seq fun _ => (Finds.skipWhile _).seq fun _ =>
    (reference_finds h).bind fun target htarget => (Finds.skipWhile _).seq fun _ =>
      Finds.rest.seq fun cs => ?_
  split
  · exact .unexpected _
  · exact (Finds.skip 1).seq fun _ => (h.expr _ _).bind fun value hvalue =>
      closeParen_stays.seq fun _ => .pure ⟨htarget, hvalue⟩
  · exact .unexpected _

theorem loopHead_finds :
    Finds text base (fun p => AllStand text base p.2.references) (loopHead inner) := by
  refine (openParen_stays _).seq fun _ => (Finds.skipWhile _).seq fun _ =>
    (reference_finds h).bind fun r _ => .ite ?_ (.failAt _ _)
  refine (Finds.skipWhile _).seq fun _ => (Finds.wholeWord _).seq fun _ => .ite ?_ (.unexpected _)
  exact (h.expr _ _).bind fun items hitems => closeParen_stays.seq fun _ => .pure hitems

/-- The references of the branches of a condition and of what is rendered otherwise. -/
theorem branches_finds (opened : Position) : (limit : Nat) → (condition : Expr) →
    AllStand text base condition.references →
      Finds text base (fun p => AllStand text base (branchesReferences p.1) ∧
        ∀ ns ∈ p.2, AllStand text base (nodesReferences ns))
        (branches inner opened limit condition)
  | 0, _, _ => .unexpected _
  | limit + 1, condition, hcondition => by
      refine (h.block _ _).bind fun body hbody => ?_
      have hnodes := allStand_nodes hbody.nodes
      obtain ⟨nodes, ending⟩ := body
      cases ending with
      | endOfText => exact .unexpected _
      | finish position =>
        exact .pure ⟨allStand_append.mpr ⟨hcondition, allStand_append.mpr ⟨hnodes, allStand_nil⟩⟩,
          nofun⟩
      | elseIf next position =>
        exact (branches_finds opened limit next hbody.ending).bind fun more hmore =>
          .pure ⟨allStand_append.mpr ⟨hcondition, allStand_append.mpr ⟨hnodes, hmore.1⟩⟩, hmore.2⟩
      | otherwise position =>
        refine (h.block _ _).bind fun last hlast => ?_
        have hlastNodes := allStand_nodes hlast.nodes
        obtain ⟨lastNodes, lastEnding⟩ := last
        cases lastEnding with
        | endOfText => exact .unexpected _
        | finish position =>
          refine .pure ⟨allStand_append.mpr ⟨hcondition,
            allStand_append.mpr ⟨hnodes, allStand_nil⟩⟩, ?_⟩
          rintro _ ⟨⟩
          exact hlastNodes
        | otherwise position => exact .failAt _ _
        | elseIf next position => exact .failAt _ _

theorem loopBody_finds (opened : Position) :
    Finds text base (fun ns => AllStand text base (nodesReferences ns))
      (loopBody inner opened) := by
  refine (h.block _ _).bind fun body hbody => ?_
  cases body.ending with
  | endOfText => exact .unexpected _
  | finish position => exact .pure (allStand_nodes hbody.nodes)
  | otherwise position => exact .failAt _ _
  | elseIf next position => exact .failAt _ _

theorem directive_finds {d : Draft} (hd : d.AllStand text base) (position : Position)
    (indent : Option Nat) : (word : Directive) →
      Finds text base (Step.AllStand text base) (directive inner position indent d word)
  | .assign => (assignment_finds h).bind fun _ hp => (gobble_finds hd _).bind fun _ hd =>
      .pure (hd.add (allStand_append.mpr hp))
  | .ifThen => by
      refine (argument_finds h _).bind fun condition hcondition =>
        (gobble_finds hd _).bind fun d hd =>
          (branches_finds h _ _ condition hcondition).bind fun p hp => .pure (hd.add fun r hr => ?_)
      obtain hr | ⟨ns, hns, hr⟩ := mem_references_conditional.mp hr
      · exact hp.1 r hr
      · exact hp.2 ns hns r hr
  | .elseIf => (argument_finds h _).bind fun _ hcondition => (gobble_finds hd _).bind fun _ hd =>
      .pure ⟨hd.finish, hcondition⟩
  | .otherwise => (gobble_finds hd _).bind fun _ hd => .pure ⟨hd.finish, allStand_nil⟩
  | .finish => (gobble_finds hd _).bind fun _ hd => .pure ⟨hd.finish, allStand_nil⟩
  | .forEach => (loopHead_finds h).bind fun _ hp => (gobble_finds hd _).bind fun _ hd =>
      (loopBody_finds h _).bind fun _ hbody => .pure (hd.add (allStand_append.mpr ⟨hp, hbody⟩))
  | .leave => (gobble_finds hd _).bind fun _ hd => .pure (hd.add allStand_nil)
  | .stop => (gobble_finds hd _).bind fun _ hd => .pure (hd.add allStand_nil)
  | .parse => (argument_finds h _).bind fun _ hname => (gobble_finds hd _).bind fun _ hd =>
      .pure (hd.add hname)
  | .insert => (argument_finds h _).bind fun _ hname => (gobble_finds hd _).bind fun _ hd =>
      .pure (hd.add hname)

theorem hash_finds {d : Draft} (hd : d.AllStand text base) :
    Finds text base (Step.AllStand text base) (hash inner d) := by
  refine Finds.rest.seq fun cs => ?_
  split
  · exact (lineComment_finds hd).bind fun _ hd => .pure hd
  · exact (blockComment_finds hd).bind fun _ hd => .pure hd
  · exact (verbatim_finds hd).bind fun _ hd => .pure hd
  · split
    · exact Finds.get.seq fun _ => (Finds.skip _).seq fun _ => directive_finds h hd _ _ _
    · exact (Finds.skip 1).seq fun _ => .pure hd

theorem step_finds {d : Draft} (hd : d.AllStand text base) :
    Finds text base (Step.AllStand text base) (step inner d) := by
  refine .peek?_bind fun c? cur s cur' hcur hhead hr => ?_
  split at hr
  · cases hr
    exact ⟨hcur, hd.finish, allStand_nil⟩
  · obtain ⟨d', cur₁, hd', hr⟩ := bind_eq_ok_iff.mp hr
    cases hr
    exact escape_finds hd cur d' _ hcur hd'
  · obtain ⟨r?, cur₁, hr?, hr⟩ := bind_eq_ok_iff.mp hr
    obtain ⟨hcur₁, hrefs⟩ := reference?_finds h hcur hhead hr?
    cases r? with
    | some r =>
      cases hr
      exact ⟨hcur₁, hd.add (hrefs r rfl)⟩
    | none =>
      cases hr
      exact ⟨hcur₁.skip 1, hd⟩
  · exact hash_finds h hd cur s cur' hcur hr
  · cases hr
    exact ⟨hcur.skip 1, hd⟩

/-! ### Blocks -/

theorem blockFrom_finds : (limit : Nat) → {d : Draft} → d.AllStand text base →
    Finds text base (Block.AllStand text base) (blockFrom inner limit d)
  | 0, _, hd => .pure ⟨hd.finish, allStand_nil⟩
  | limit + 1, _, hd => by
      refine (step_finds h hd).bind fun s hs => ?_
      cases s with
      | goOn d => exact blockFrom_finds limit hs
      | done b => exact .pure hs

theorem block_finds : Finds text base (Block.AllStand text base) (block inner) :=
  blockFrom_finds h _ .empty

end

end Grammar

/-- What the readers of expressions and blocks find stands in the text that they read. -/
theorem Inner.upTo_finds : (limit : Nat) → (Inner.upTo limit).Finds
  | 0 => ⟨upTo_shrinks 0, fun _ _ => .unexpected _,
      fun _ _ => .pure ⟨nofun, allStand_nil⟩⟩
  | limit + 1 => ⟨upTo_shrinks (limit + 1), fun _ _ => Grammar.expr_finds (upTo_finds limit),
      fun _ _ => Grammar.block_finds (upTo_finds limit)⟩

/-- The references of a source stand in it, and the names in them are words. -/
theorem allStand_of_parse {source : String} {ns : List Node} (h : parse source = .ok ns) :
    AllStand source.toList .start (nodesReferences ns) := by
  unfold parse at h
  dsimp only at h
  cases hblock : (Inner.upTo source.toList.length).block (.ofChars source.toList .start) with
  | error e =>
    rw [StateT.run, hblock] at h
    cases h
  | ok p =>
    rw [StateT.run, hblock] at h
    obtain rfl := Block.nodes_of_whole h
    exact allStand_nodes ((Inner.upTo_finds _).block _ _ _ p.1 p.2 .ofChars hblock).2.nodes

/-- **The places of references.** Every reference of a source, wherever it is in the tree, is read
where its `$` stands, which may be inside double quotes. Its place is in the line of this `$`, and
before it by the double quotes that the contents of these quotes have before the reference in their
last lines. So it is the place of the `$` exactly if there are none. -/
theorem parse_reference_position {source : String} {ns : List Node}
    (h : parse source = .ok ns) {r : Reference} (hr : r ∈ nodesReferences ns) :
    ∃ front contents rest, Occurs source.toList front contents (r.literal.toList ++ rest) ∧
      (∃ after, source.toList = front ++ '$' :: after) ∧
      Position.start.afterAll front =
        ⟨r.position.line, r.position.column + (contents.map lastLineQuotes).sum⟩ ∧
      (r.position = Position.start.afterAll front ↔
        ∀ content ∈ contents, '"' ∉ lastLine content) := by
  obtain ⟨⟨front, contents, rest, hoccurs, hhead, hplace⟩, -⟩ := allStand_of_parse h r hr
  obtain ⟨cs, hcs⟩ := List.head?_eq_some_iff.mp hhead
  refine ⟨front, contents, rest, hoccurs, ?_, hplace, ?_⟩
  · rw [hcs] at hoccurs
    exact hoccurs.text_eq (by decide)
  · rw [hplace, ← lastLineQuotes_sum_eq_zero]
    constructor
    · intro hposition
      have hcolumn := congrArg Position.column hposition
      dsimp only at hcolumn
      omega
    · intro hsum
      rw [hsum]
      rfl

/-- In quotes of two lines, the double quotes of the first line are of no account in the second
one. -/
theorem parse_reference_position_second_line :
    let source := "#set($x = \"\"\"a\"\"\n $b\")"
    let target : Reference := .mk "x" [] false "$x" ⟨1, 6⟩
    let r : Reference := .mk "b" [] false "$b" ⟨2, 2⟩
    let ns : List Node :=
      [.assign target (.interpolated [.text "\"a\"\n ", .reference r]) ⟨1, 1⟩]
    parse source = .ok ns ∧ r ∈ nodesReferences ns ∧
      ∃ front contents rest, Occurs source.toList front contents (r.literal.toList ++ rest) ∧
        (∃ after, source.toList = front ++ '$' :: after) ∧
        Position.start.afterAll front =
          ⟨r.position.line, r.position.column + (contents.map lastLineQuotes).sum⟩ ∧
        (r.position = Position.start.afterAll front ↔
          ∀ content ∈ contents, '"' ∉ lastLine content) := by
  intro source target r ns
  have hparse : parse source = .ok ns := by cbv
  have hr : r ∈ nodesReferences ns := by
    simp [ns, r, target, Node.references, Reference.references, Expr.references,
      segmentsReferences, nodesReferences]
  exact ⟨hparse, hr, parse_reference_position hparse hr⟩

/-- After a double quote that is written twice, the place of a reference is the one before its
`$`. -/
theorem exists_reference_not_at_dollar :
    ∃ source ns r, parse source = .ok ns ∧ r ∈ nodesReferences ns ∧
      ¬∃ front after, source.toList = front ++ '$' :: after ∧
        r.position = Position.start.afterAll front := by
  refine ⟨"#set($x = \"a\"\"$b\")", [.assign (.mk "x" [] false "$x" ⟨1, 6⟩)
    (.interpolated [.text "a\"", .reference (.mk "b" [] false "$b" ⟨1, 14⟩)]) ⟨1, 1⟩],
    .mk "b" [] false "$b" ⟨1, 14⟩, by cbv, ?_, ?_⟩
  · simp [Node.references, Reference.references, Expr.references, segmentsReferences,
      nodesReferences]
  · rintro ⟨front, after, htext, hposition⟩
    have hdollars : ∀ k < 18, ("#set($x = \"a\"\"$b\")".toList.drop k).head? = some '$' →
        Position.start.afterAll ("#set($x = \"a\"\"$b\")".toList.take k) ≠ ⟨1, 14⟩ := by
      decide
    refine hdollars front.length ?_ ?_ ?_
    · have hlength := congrArg List.length htext
      rw [List.length_append, List.length_cons] at hlength
      change 18 = _ at hlength
      omega
    · rw [htext, List.drop_left]
      rfl
    · rw [htext, List.take_left]
      exact hposition.symm

end GatewayMapping.Template
