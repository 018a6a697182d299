import GatewayMapping.Proofs.Reading.Context
import GatewayMapping.Proofs.Reading.Directives

/-!
# Readers do not depend on the context

A reader looks at no character beyond a closing bracket or a line feed that it leaves, and it takes
no notice of the place where it is. So it reads the same, places apart, when the text is somewhere
else, and when another text stands after the bracket or the line (`Inner.upTo_tracks`). Blocks end
with the text or with a directive, so that nothing follows them here.

## Main definitions

* `Block.unplaced`: a block without its places.
* `Inner.Tracks`: readers of expressions and blocks that do the same in any context.

## Main results

* `Inner.upTo_tracks`: the readers of all limits do.
-/

namespace GatewayMapping.Template

/-! ### Blocks without places -/

/-- The end of a block without its places. -/
def Ending.unplaced (lit : String → String) : Ending → Ending
  | .endOfText => .endOfText
  | .finish _ => .finish .start
  | .otherwise _ => .otherwise .start
  | .elseIf condition _ => .elseIf (condition.unplaced lit) .start

/-- A block without its places. -/
def Block.unplaced (lit : String → String) (b : Block) : Block :=
  ⟨b.nodes.map (Node.unplaced lit), b.ending.unplaced lit⟩

/-- Blocks that are the same places apart both end with the text or both do not. -/
theorem Block.whole_eq_ok {lit : String → String} {b b' : Block}
    (hb : b.unplaced lit = b'.unplaced lit) {ns : List Node} (h : b.whole = .ok ns) :
    ∃ ns', b'.whole = .ok ns' ∧ InvImage Eq (List.map (Node.unplaced lit)) ns ns' := by
  obtain ⟨nodes, ending⟩ := b
  obtain ⟨nodes', ending'⟩ := b'
  obtain ⟨hnodes, hending⟩ := Block.mk.inj hb
  cases ending with
  | endOfText =>
    cases h
    cases ending' with
    | endOfText => exact ⟨nodes', rfl, hnodes⟩
    | _ => cases hending
  | _ => cases h

/-- They also fail alike. -/
theorem Block.whole_eq_error {lit : String → String} {b b' : Block}
    (hb : b.unplaced lit = b'.unplaced lit) {e : SyntaxError} (h : b.whole = .error e) :
    ∃ e', b'.whole = .error e' ∧ e.fault.unplaced lit = e'.fault.unplaced lit := by
  obtain ⟨nodes, ending⟩ := b
  obtain ⟨nodes', ending'⟩ := b'
  obtain ⟨-, hending⟩ := Block.mk.inj hb
  cases ending with
  | endOfText => cases h
  | finish position =>
    cases h
    cases ending' with
    | finish position' => exact ⟨_, rfl, rfl⟩
    | _ => cases hending
  | otherwise position =>
    cases h
    cases ending' with
    | otherwise position' => exact ⟨_, rfl, rfl⟩
    | _ => cases hending
  | elseIf next position =>
    cases h
    cases ending' with
    | elseIf next' position' => exact ⟨_, rfl, rfl⟩
    | _ => cases hending

/-- A draft without the places in its nodes. -/
def Draft.unplaced (lit : String → String) (d : Draft) : Draft :=
  ⟨d.nodes.map (Node.unplaced lit), d.text⟩

namespace Draft

variable {lit : String → String}

theorem closed_unplaced (d : Draft) :
    (d.unplaced lit).closed = d.closed.map (Node.unplaced lit) := by
  rw [closed, closed]
  split
  · rw [if_pos ‹_›]
    rfl
  · rw [if_neg ‹_›]
    rfl

theorem add_unplaced (d : Draft) (node : Node) :
    (d.add node).unplaced lit = (d.unplaced lit).add (node.unplaced lit) := by
  rw [add, add, closed_unplaced]
  rfl

theorem finish_unplaced (d : Draft) :
    (d.unplaced lit).finish = d.finish.map (Node.unplaced lit) := by
  rw [finish, finish, closed_unplaced, List.map_reverse]

theorem finish_eq {d d' : Draft} (h : d.unplaced lit = d'.unplaced lit) :
    d.finish.map (Node.unplaced lit) = d'.finish.map (Node.unplaced lit) := by
  rw [← finish_unplaced, ← finish_unplaced, h]

end Draft

/-- A step without places. -/
def Grammar.Step.unplaced (lit : String → String) : Grammar.Step → Grammar.Step
  | .goOn d => .goOn (d.unplaced lit)
  | .done b => .done (b.unplaced lit)

/-- Readers that do the same in any context, places apart. A block ends with the text, so that
nothing follows it. -/
structure Inner.Tracks (lit : String → String) (inner : Inner) : Prop where
  expr : ∀ after after' indented,
    Read.Tracks lit after after' indented (InvImage Eq (Expr.unplaced lit)) inner.expr inner.expr
  block : Read.Tracks lit [] [] True (InvImage Eq (Block.unplaced lit)) inner.block inner.block

theorem Inner.Tracks.shrinks {lit : String → String} {inner : Inner} (h : inner.Tracks lit) :
    inner.Shrinks :=
  ⟨(h.expr [] [] True).shrinks, h.block.shrinks⟩

namespace Grammar

open Read (Tracks Shrinks bind_eq_ok_iff)

variable {lit : String → String} {after after' : List Char} {indented : Prop}

/-! ### Expressions -/

theorem number_tracks : Tracks lit after after' indented Eq number number := by
  refine (Tracks.takeWhile Char.isDigit).bind_eq fun whole => .lookahead (fun cs hg => ?_)
    fun cs => ?_
  · obtain _ | ⟨c, cs⟩ := cs
    · rw [hg.eq_nil.1, hg.eq_nil.2]
    · by_cases hc : c = '.'
      · subst hc
        obtain _ | ⟨d, cs⟩ := cs
        · rw [(hg.eq_nil_of_cons rfl).1, (hg.eq_nil_of_cons rfl).2]
        · rfl
      · simp [hc]
  · split
    · exact .ite ((Tracks.skip 1).bind_eq fun _ => (Tracks.takeWhile _).bind_eq fun _ => .pure rfl)
        (.pure rfl)
    · exact .pure rfl

theorem constant_tracks : Tracks lit after after' indented Eq constant constant := by
  refine (Tracks.wholeWord (not_guard_of_any rfl)).bind_eq fun _ => .ite (.pure rfl) ?_
  refine (Tracks.wholeWord (not_guard_of_any rfl)).bind_eq fun _ => .ite (.pure rfl) ?_
  refine (Tracks.wholeWord (not_guard_of_any rfl)).bind_eq fun _ => .ite (.pure rfl) ?_
  exact .here_bind fun _ _ => (Tracks.takeWhile _).bind_eq fun _ => .failAt rfl

theorem unaryOp?_tracks : Tracks lit after after' indented Eq unaryOp? unaryOp? := by
  refine .lookahead (fun cs hg => ?_) fun cs => ?_
  · obtain _ | ⟨c, cs⟩ := cs
    · rw [hg.eq_nil.1, hg.eq_nil.2]
    · by_cases hc : c = '!'
      · subst hc
        obtain _ | ⟨d, cs⟩ := cs
        · rw [(hg.eq_nil_of_cons rfl).1, (hg.eq_nil_of_cons rfl).2]
        · by_cases hd : d = '='
          · subst hd
            rfl
          · simp [hd]
      · simp [hc]
  · split
    · exact .pure rfl
    · exact (Tracks.skip 1).bind_eq fun _ => .pure rfl
    · exact (Tracks.wholeWord (not_guard_of_any rfl)).bind_eq fun _ =>
        .ite (.pure rfl) (.ite ((Tracks.skip 1).bind_eq fun _ => .pure rfl) (.pure rfl))

theorem symbol_not_guard (op : BinaryOp) : ∀ c ∈ op.symbol, isGuard c = false := by
  cases op <;> exact not_guard_of_any rfl

theorem word_not_guard {op : BinaryOp} {word : List Char} (h : op.word? = some word) :
    ∀ c ∈ word, isGuard c = false := by
  cases op <;> cases h <;> exact not_guard_of_any rfl

theorem binaryOp?_tracks : (ops : List BinaryOp) →
    Tracks lit after after' indented Eq (binaryOp? ops) (binaryOp? ops)
  | [] => .pure rfl
  | op :: ops => by
      refine (Tracks.sign (symbol_not_guard op)).bind_eq fun _ => .ite (.pure rfl) ?_
      cases hword : op.word? with
      | some word =>
        exact (Tracks.wholeWord (word_not_guard hword)).bind_eq fun _ =>
          .ite (.pure rfl) (binaryOp?_tracks ops)
      | none => exact binaryOp?_tracks ops

section

variable {inner : Inner} (h : inner.Tracks lit)
include h

theorem doubleQuoted_tracks :
    Tracks lit after after' indented (InvImage Eq (Expr.unplaced lit)) (doubleQuoted inner)
      (doubleQuoted inner) := by
  refine .here_bind fun base base' => (Tracks.quoted '"').bind_eq fun content =>
    .ite ?_ (.pure rfl)
  have hext : (Cursor.ofChars content (base.after '"')).Extends [] [] True
      (.ofChars content (base'.after '"')) := .of_append (List.append_nil _).symm fun _ => rfl
  have hblock : ∀ p, inner.block.run (.ofChars content (base.after '"')) = .ok p →
      ∃ p', inner.block.run (.ofChars content (base'.after '"')) = .ok p' ∧
        InvImage Eq (fun p : Block × Cursor => p.1.unplaced lit) p p' := by
    rintro ⟨b, cur⟩ hb
    obtain ⟨b', cur', hb', heq, -⟩ := h.block.follows hext hb (.inl ⟨rfl, rfl⟩)
    exact ⟨(b', cur'), hb', heq⟩
  refine (Tracks.lift hblock fun _ => h.block.fails ⟨rfl, rfl⟩ hext).bind_on fun p p' hp => ?_
  refine (Tracks.lift (fun _ => Block.whole_eq_ok hp)
    fun _ => Block.whole_eq_error hp).bind_on fun ns ns' hns => .pure ?_
  simp only [InvImage, Expr.unplaced, unplacedNodes_eq_map, hns]

theorem list_tracks :
    Tracks lit after after' indented (InvImage Eq (Expr.unplaced lit)) (list inner)
      (list inner) := by
  refine (Tracks.skip 1).bind_eq fun _ => (Tracks.skipWhile _).bind_eq fun _ =>
    Tracks.peek?.bind_eq fun _ => .ite ((Tracks.skip 1).bind_eq fun _ => .pure rfl) ?_
  refine (h.expr _ _ _).bind_on fun first first' hfirst => (Tracks.skipWhile _).bind_eq fun _ =>
    (Tracks.sign (not_guard_of_any rfl)).bind_eq fun _ => .ite ?_ ?_
  · refine (h.expr _ _ _).bind_on fun last last' hlast => (Tracks.skipWhile _).bind_eq fun _ =>
      (Tracks.char _ _).bind_eq fun _ => .pure ?_
    simp only [InvImage, Expr.unplaced, hfirst, hlast]
  · refine (Tracks.itemsAfter (h.expr _ _ _) _ _ _).bind_on fun items items' hitems => .pure ?_
    simp only [InvImage, Expr.unplaced, unplacedExprs_eq_map, List.map_cons, hfirst, hitems]

theorem entry_tracks :
    Tracks lit after after' indented
      (InvImage Eq fun e : Expr × Expr => (e.1.unplaced lit, e.2.unplaced lit)) (entry inner)
      (entry inner) := by
  refine (h.expr _ _ _).bind_on fun key key' hkey => (Tracks.skipWhile _).bind_eq fun _ =>
    (Tracks.char _ _).bind_eq fun _ => (h.expr _ _ _).bind_on fun value value' hvalue => .pure ?_
  simp only [InvImage, hkey, hvalue]

theorem map_tracks :
    Tracks lit after after' indented (InvImage Eq (Expr.unplaced lit)) (map inner) (map inner) := by
  refine (Tracks.skip 1).bind_eq fun _ =>
    (Tracks.items (entry_tracks h) _ _ _).bind_on fun entries entries' hentries => .pure ?_
  simp only [InvImage, Expr.unplaced, unplacedEntries_eq_map, hentries]

theorem segments_tracks : (limit : Nat) →
    Tracks lit after after' indented (InvImage Eq (List.map (Segment.unplaced lit)))
      (segments inner limit) (segments inner limit)
  | 0 => .pure rfl
  | limit + 1 => by
      have hmore {s s' : Segment} (hs : s.unplaced lit = s'.unplaced lit) :
          Tracks lit after after' indented (InvImage Eq (List.map (Segment.unplaced lit)))
            (return s :: (← segments inner limit)) (return s' :: (← segments inner limit)) :=
        (segments_tracks limit).bind_on fun _ _ hrest => .pure (List.cons_eq_cons.mpr ⟨hs, hrest⟩)
      refine .lookahead (fun cs hg => ?_) fun cs => ?_
      · obtain _ | ⟨c, cs⟩ := cs
        · rw [hg.eq_nil.1, hg.eq_nil.2]
        · by_cases hc : c = '.'
          · subst hc
            obtain _ | ⟨d, cs⟩ := cs
            · rw [(hg.eq_nil_of_cons rfl).1, (hg.eq_nil_of_cons rfl).2]
            · rfl
          · by_cases hc' : c = '['
            · subst hc'
              rfl
            · simp [hc, hc']
      · split
        · refine .ite ((Tracks.skip 1).bind_eq fun _ => Tracks.name.bind_eq fun _ =>
            Tracks.peek?.bind_eq fun _ => .ite ?_ (hmore rfl)) (.pure rfl)
          refine (Tracks.skip 1).bind_eq fun _ =>
            (Tracks.items (h.expr _ _ _) _ _ _).bind_on fun args args' hargs => hmore ?_
          simp only [Segment.unplaced, unplacedExprs_eq_map, hargs]
        · refine (Tracks.skip 1).bind_eq fun _ => (h.expr _ _ _).bind_on fun i i' hi =>
            (Tracks.skipWhile _).bind_eq fun _ => (Tracks.char _ _).bind_eq fun _ => hmore ?_
          simp only [Segment.unplaced, hi]
        · exact .pure rfl

theorem referenceAfter_tracks (s : Sigil) :
    Tracks lit after after' indented (InvImage Eq (Reference.unplaced lit)) (referenceAfter inner s)
      (referenceAfter inner s) := by
  have hend {name : String} {path path' : List Segment} {start start' : Cursor}
      (hpath : path.map (Segment.unplaced lit) = path'.map (Segment.unplaced lit))
      (hstart : start.Extends after after' indented start') :
      Tracks lit after after' indented (InvImage Eq (Reference.unplaced lit))
        (return .mk name path s.quiet (String.ofList (start.upTo (← get))) start.position)
        (return .mk name path' s.quiet (String.ofList (start'.upTo (← get))) start'.position) := by
    refine Tracks.get.bind (fun cur cur' hcur => .pure ?_) fun _ => .pure _
    simp only [InvImage, Reference.unplaced, unplacedSegments_eq_map, hpath, hstart.upTo hcur]
  refine Tracks.get.bind (fun start start' hstart => (Tracks.skip _).bind_eq fun _ =>
    Tracks.name.bind_eq fun name => (segments_tracks h _).bind_on fun path path' hpath =>
      .ite ((Tracks.char _ _).bind_eq fun _ => hend hpath hstart) (hend hpath hstart)) fun _ => ?_
  exact (Shrinks.skip _).bind fun _ => Shrinks.name.bind fun _ =>
    (segments_shrinks h.shrinks _).bind fun _ =>
      .ite ((Shrinks.char _ _).bind fun _ => Shrinks.get.bind fun _ => .pure _)
        (Shrinks.get.bind fun _ => .pure _)

omit h in
/-- How a reference begins is seen from its beginning. -/
theorem sigil?_append {cs : List Char} (hg : Guarded after after' (cs ++ after)) :
    sigil? (cs ++ after') = sigil? (cs ++ after) := by
  have hskip : ∀ {cs : List Char} (c : Char), Guarded after after' (cs ++ after) →
      isGuard c = false → ∃ ds, Guarded after after' (ds ++ after) ∧
        (if (cs ++ after).head? = some c then (cs ++ after).tail else cs ++ after) = ds ++ after ∧
        (if (cs ++ after').head? = some c then (cs ++ after').tail else cs ++ after') =
          ds ++ after' := by
    intro cs c hg hc
    rw [hg.head?]
    split
    · next hhead =>
      cases cs with
      | nil =>
        obtain ⟨rfl, rfl⟩ := hg.eq_nil
        cases hhead
      | cons d cs =>
        obtain rfl : d = c := Option.some.inj hhead
        exact ⟨cs, hg.tail hc, rfl, rfl⟩
    · exact ⟨cs, hg, rfl, rfl⟩
  obtain ⟨ds, hg₁, hquiet, hquiet'⟩ := hskip '!' hg rfl
  obtain ⟨es, hg₂, hbraced, hbraced'⟩ := hskip '\x7b' hg₁ rfl
  rw [hg.head?] at hquiet'
  rw [hg₁.head?] at hbraced'
  simp only [sigil?, hg.head?, hquiet, hquiet', hg₁.head?, hbraced, hbraced', hg₂.head?]

omit h in
/-- A reference is read from a dollar sign and what makes it the beginning of one. -/
theorem reference_eq_ok_iff {r : Reference} {cur cur' : Cursor} :
    reference inner cur = .ok (r, cur') ↔ ∃ cs s, cur.rest = '$' :: cs ∧ sigil? cs = some s ∧
      referenceAfter inner s cur = .ok (r, cur') := by
  constructor
  · intro h
    obtain ⟨_, _, ⟨⟩, h⟩ := bind_eq_ok_iff.mp h
    split at h
    · rename_i hhead
      obtain ⟨cs, hrest⟩ := List.head?_eq_some_iff.mp hhead
      obtain ⟨r?, cur₁, hr, h⟩ := bind_eq_ok_iff.mp h
      obtain ⟨_, _, ⟨⟩, hr⟩ := bind_eq_ok_iff.mp hr
      rw [hrest, List.tail_cons] at hr
      cases hs : sigil? cs with
      | none =>
        rw [hs] at hr
        cases hr
        cases h
      | some s =>
        rw [hs] at hr
        obtain ⟨r', cur₂, hr, heq⟩ := bind_eq_ok_iff.mp hr
        cases heq
        cases h
        exact ⟨cs, s, hrest, hs, hr⟩
    · cases h
  · rintro ⟨cs, s, hrest, hs, hr⟩
    have hr? : reference? inner cur = .ok (some r, cur') := by
      refine bind_eq_ok_iff.mpr ⟨cur.rest, cur, rfl, ?_⟩
      rw [hrest, List.tail_cons, hs]
      exact bind_eq_ok_iff.mpr ⟨r, cur', hr, rfl⟩
    refine bind_eq_ok_iff.mpr ⟨cur.rest.head?, cur, rfl, ?_⟩
    rw [hrest]
    exact bind_eq_ok_iff.mpr ⟨some r, cur', hr?, rfl⟩

theorem reference?_tracks :
    Tracks lit [] [] indented (InvImage Eq (Option.map (Reference.unplaced lit)))
      (reference? inner) (reference? inner) := by
  refine .lookahead (fun _ _ => rfl) fun cs => ?_
  cases sigil? cs.tail with
  | some s =>
    exact (referenceAfter_tracks h s).bind_on fun _ _ hr => .pure (congrArg some hr)
  | none => exact .pure rfl

theorem reference_tracks :
    Tracks lit after after' indented (InvImage Eq (Reference.unplaced lit)) (reference inner)
      (reference inner) where
  shrinks cur r cur₁ hr := by
    obtain ⟨cs, s, -, -, hr⟩ := reference_eq_ok_iff.mp hr
    exact referenceAfter_shrinks h.shrinks s cur r cur₁ hr
  follows {cur cur'} hext r cur₁ hr hg := by
    obtain ⟨ds, s, hds, hs, hr⟩ := reference_eq_ok_iff.mp hr
    have hg₁ := hg.of_suffix (referenceAfter_shrinks h.shrinks s cur r cur₁ hr)
    obtain ⟨r', cur₁', hr', heq, hext₁⟩ := (referenceAfter_tracks h s).follows hext hr hg
    obtain ⟨cs, hrest, hrest'⟩ := hext.rests
    rw [hrest] at hds hg₁
    cases cs with
    | nil =>
      obtain ⟨rfl, rfl⟩ := hg₁.eq_nil
      cases hds
    | cons c cs =>
      obtain ⟨rfl, rfl⟩ := List.cons.inj hds
      refine ⟨r', cur₁', reference_eq_ok_iff.mpr ⟨cs ++ after', s, hrest', ?_, hr'⟩, heq, hext₁⟩
      exact (sigil?_append (hg₁.tail rfl)).trans hs
  fails hnil cur cur' hext e hr := by
    obtain ⟨rfl, rfl⟩ := hnil
    have htracks : Tracks lit [] [] indented (InvImage Eq (Reference.unplaced lit))
        (reference inner) (reference inner) := by
      refine Tracks.peek?.bind_eq fun _ => .ite ?_ (.unexpected rfl)
      refine (reference?_tracks h).bind_on fun r? r?' hr => ?_
      cases r? with
      | some r =>
        cases r?' with
        | some r' => exact .pure (Option.some.inj hr)
        | none => cases hr
      | none =>
        cases r?' with
        | some r' => cases hr
        | none => exact .unexpected rfl
    exact htracks.fails ⟨rfl, rfl⟩ hext hr

theorem primary_tracks :
    Tracks lit after after' indented (InvImage Eq (Expr.unplaced lit)) (primary inner)
      (primary inner) := by
  refine (Tracks.skipWhile _).bind_eq fun _ => Tracks.peek?.bind_eq fun c? => ?_
  split
  · exact .unexpected rfl
  · exact (Tracks.skip 1).bind_eq fun _ => (h.expr _ _ _).bind_on fun e e' he =>
      (Tracks.skipWhile _).bind_eq fun _ => (Tracks.char _ _).bind_eq fun _ => .pure he
  · exact (Tracks.quoted _).bind_eq fun _ => .pure rfl
  · exact doubleQuoted_tracks h
  · exact list_tracks h
  · exact map_tracks h
  · refine (reference_tracks h).bind_on fun r r' hr => .pure ?_
    simp only [InvImage, Expr.unplaced, hr]
  · exact .ite (number_tracks.of_eq _) (.ite (constant_tracks.of_eq _) (.unexpected rfl))

theorem unary_tracks : (limit : Nat) →
    Tracks lit after after' indented (InvImage Eq (Expr.unplaced lit)) (unary inner limit)
      (unary inner limit)
  | 0 => primary_tracks h
  | limit + 1 => by
      refine (Tracks.skipWhile _).bind_eq fun _ => .here_bind fun _ _ =>
        unaryOp?_tracks.bind_eq fun op? => ?_
      cases op? with
      | some op =>
        refine (unary_tracks limit).bind_on fun e e' he => .pure ?_
        simp only [InvImage, Expr.unplaced, he]
      | none => exact primary_tracks h

omit h in
theorem chain_tracks {operand : Read Expr}
    (ho : Tracks lit after after' indented (InvImage Eq (Expr.unplaced lit)) operand operand)
    (ops : List BinaryOp) :
    (limit : Nat) → {left left' : Expr} → left.unplaced lit = left'.unplaced lit →
      Tracks lit after after' indented (InvImage Eq (Expr.unplaced lit))
        (chain operand ops limit left) (chain operand ops limit left')
  | 0, _, _, hleft => .pure hleft
  | limit + 1, left, left', hleft => by
      refine (Tracks.skipWhile _).bind_eq fun _ => .here_bind fun _ _ =>
        (binaryOp?_tracks ops).bind_eq fun op? => ?_
      cases op? with
      | some op =>
        refine ho.bind_on fun right right' hright => chain_tracks ho ops limit ?_
        simp only [Expr.unplaced, hleft, hright]
      | none => exact .pure hleft

theorem levels_track (limit : Nat) : (levels : List (List BinaryOp)) →
    Tracks lit after after' indented (InvImage Eq (Expr.unplaced lit))
      (levels.foldr (level limit) (unary inner limit))
      (levels.foldr (level limit) (unary inner limit))
  | [] => unary_tracks h limit
  | ops :: levels => by
      have ho := levels_track limit levels
      exact ho.bind_on fun left left' hleft => chain_tracks ho ops limit hleft

theorem expr_tracks :
    Tracks lit after after' indented (InvImage Eq (Expr.unplaced lit)) (expr inner) (expr inner) :=
  levels_track h _ levels

/-! ### Parts of blocks -/

omit h in
theorem gobble_tracks (indent : Option Nat) {d d' : Draft}
    (hd : d.unplaced lit = d'.unplaced lit) :
    Tracks lit [] [] True (InvImage Eq (Draft.unplaced lit)) (Read.gobble indent d)
      (Read.gobble indent d') := by
  refine .rest_bind fun cs => ?_
  split
  · refine (Tracks.skip _).bind_eq fun _ => .pure ?_
    exact congrArg (Draft.trimIndent · _) hd
  · exact .pure hd

omit h in
theorem escape_tracks {d d' : Draft} (hd : d.unplaced lit = d'.unplaced lit) :
    Tracks lit after after' indented (InvImage Eq (Draft.unplaced lit)) (escape d) (escape d') := by
  refine (Tracks.takeWhile _).bind_eq fun slashes => Tracks.peek?.bind_eq fun c? => ?_
  have happend (cs : List Char) : (d.append cs).unplaced lit = (d'.append cs).unplaced lit :=
    congrArg (Draft.append · cs) hd
  cases c? with
  | none => exact .pure (happend slashes)
  | some c =>
    refine .ite (.ite ((Tracks.skip 1).bind_eq fun _ => .pure ?_) (.pure (happend _)))
      (.pure (happend slashes))
    exact congrArg (Draft.push · c) (happend _)

omit h in
theorem lineComment_tracks {d d' : Draft} (hd : d.unplaced lit = d'.unplaced lit) :
    Tracks lit [] [] True (InvImage Eq (Draft.unplaced lit)) (lineComment d) (lineComment d') := by
  refine .get_bind fun cur cur' hcur => (Tracks.skipWhile _).bind_eq fun _ =>
    (Tracks.skip 1).bind_eq fun _ => .pure ?_
  rw [hcur.indent trivial]
  cases cur.indent with
  | none => exact hd
  | some n => exact congrArg (Draft.trimIndent · n) hd

omit h in
theorem blockComment_tracks {d d' : Draft} (hd : d.unplaced lit = d'.unplaced lit) :
    Tracks lit [] [] True (InvImage Eq (Draft.unplaced lit)) (blockComment d)
      (blockComment d') := by
  refine .get_bind fun cur cur' hcur => .rest_bind fun cs => ?_
  rw [hcur.indent trivial]
  cases Text.indexOf? ['*', '#'] (cs.drop 2) with
  | some n => exact (Tracks.skip _).bind_eq fun _ => gobble_tracks _ hd
  | none => exact .fail _

omit h in
theorem verbatim_tracks {d d' : Draft} (hd : d.unplaced lit = d'.unplaced lit) :
    Tracks lit [] [] True (InvImage Eq (Draft.unplaced lit)) (verbatim d) (verbatim d') := by
  refine .rest_bind fun cs => ?_
  dsimp only
  cases Text.indexOf? [']', ']', '#'] (cs.drop 3) with
  | some n => exact (Tracks.skip _).bind_eq fun _ => .pure (congrArg (Draft.append · _) hd)
  | none => exact .fail _

omit h in
theorem openParen_tracks (d : Directive) :
    Tracks lit after after' indented Eq (openParen d) (openParen d) :=
  (Tracks.skipWhile _).bind_eq fun _ => .char _ _

omit h in
theorem closeParen_tracks : Tracks lit after after' indented Eq closeParen closeParen :=
  (Tracks.skipWhile _).bind_eq fun _ => .char _ _

theorem argument_tracks (d : Directive) :
    Tracks lit after after' indented (InvImage Eq (Expr.unplaced lit)) (argument inner d)
      (argument inner d) :=
  (openParen_tracks d).bind_eq fun _ => (h.expr _ _ _).bind_on fun _ _ he =>
    closeParen_tracks.bind_eq fun _ => .pure he

omit h in
/-- The sign of an assignment is seen from its beginning. -/
theorem afterTarget_append (target : Reference) {cs : List Char}
    (hg : Guarded after after' (cs ++ after)) :
    afterTarget inner target (cs ++ after') = afterTarget inner target (cs ++ after) := by
  obtain _ | ⟨c, cs⟩ := cs
  · rw [hg.eq_nil.1, hg.eq_nil.2]
  · by_cases hc : c = '='
    · subst hc
      obtain _ | ⟨d, cs⟩ := cs
      · rw [(hg.eq_nil_of_cons rfl).1, (hg.eq_nil_of_cons rfl).2]
      · by_cases hd : d = '='
        · subst hd
          rfl
        · simp [afterTarget, hd]
    · simp [afterTarget, hc]

theorem assignment_tracks :
    Tracks lit after after' indented
      (InvImage Eq fun p : Reference × Expr => (p.1.unplaced lit, p.2.unplaced lit))
      (assignment inner) (assignment inner) := by
  rw [assignment_eq]
  refine (openParen_tracks _).bind_eq fun _ => (Tracks.skipWhile _).bind_eq fun _ =>
    (reference_tracks h).bind_on fun r r' hr => (Tracks.skipWhile _).bind_eq fun _ =>
      .lookahead (fun cs hg => afterTarget_append r' hg) fun cs => ?_
  unfold afterTarget
  split
  · exact .unexpected rfl
  · exact (Tracks.skip 1).bind_eq fun _ => (h.expr _ _ _).bind_on fun e e' he =>
      closeParen_tracks.bind_eq fun _ => .pure (Prod.ext hr he)
  · exact .unexpected rfl

theorem loopHead_tracks :
    Tracks lit after after' indented
      (InvImage Eq fun p : String × Expr => (p.1, p.2.unplaced lit)) (loopHead inner)
      (loopHead inner) := by
  refine (openParen_tracks _).bind_eq fun _ => (Tracks.skipWhile _).bind_eq fun _ =>
    (reference_tracks h).bind_on fun r r' hr => ?_
  have hname := congrArg Reference.name hr
  have hbare := congrArg Reference.isBare hr
  have hliteral := congrArg Reference.literal hr
  simp only [Reference.name_unplaced, Reference.isBare_unplaced, Reference.literal_unplaced]
    at hname hbare hliteral
  rw [hbare]
  refine .ite ((Tracks.skipWhile _).bind_eq fun _ =>
    (Tracks.wholeWord (not_guard_of_any rfl)).bind_eq fun _ => .ite ?_ (.unexpected rfl))
    (.failAt (congrArg SyntaxFault.loopVariable hliteral))
  exact (h.expr _ _ _).bind_on fun e e' he =>
    closeParen_tracks.bind_eq fun _ => .pure (Prod.ext hname he)

/-! ### Blocks -/

omit h in
/-- Nothing stands for the branches of a condition but the bodies and their conditions. -/
def branchesUnplaced (lit : String → String)
    (p : List (Expr × List Node) × Option (List Node)) :
    List (Expr × List Node) × Option (List Node) :=
  (p.1.map fun b => (b.1.unplaced lit, b.2.map (Node.unplaced lit)),
    p.2.map (List.map (Node.unplaced lit)))

omit h in
/-- The head of a directive without its places. -/
def Head.unplaced (lit : String → String) : (word : Directive) → Head word → Head word
  | .assign, (target, value) => (target.unplaced lit, value.unplaced lit)
  | .forEach, (loopVariable, items) => (loopVariable, items.unplaced lit)
  | .ifThen, e => Expr.unplaced lit e
  | .elseIf, e => Expr.unplaced lit e
  | .parse, e => Expr.unplaced lit e
  | .insert, e => Expr.unplaced lit e
  | .otherwise, u | .finish, u | .leave, u | .stop, u => u

section

/- What goes through sequences and holds of the reader of blocks holds of what reads bodies. -/
variable {T : {α : Type} → (α → α → Prop) → Read α → Read α → Prop} (hT : Read.Congruence lit T)
include hT

omit h in
theorem afterLastBody_congr (opened opened' : Position) {condition condition' : Expr}
    (hcondition : condition.unplaced lit = condition'.unplaced lit) {ns ns' : List Node}
    (hns : ns.map (Node.unplaced lit) = ns'.map (Node.unplaced lit)) {last last' : Block}
    (hlast : last.unplaced lit = last'.unplaced lit) :
    T (InvImage Eq (branchesUnplaced lit)) (afterLastBody opened condition ns last)
      (afterLastBody opened' condition' ns' last') := by
  obtain ⟨nodes, ending⟩ := last
  obtain ⟨nodes', ending'⟩ := last'
  obtain ⟨hnodes, hending⟩ := Block.mk.inj hlast
  cases ending with
  | endOfText =>
    cases ending' with
    | endOfText => exact hT.unexpected rfl
    | _ => cases hending
  | finish position =>
    cases ending' with
    | finish position' =>
      refine hT.pure ?_
      simp only [InvImage, branchesUnplaced, List.map_cons, List.map_nil, hcondition, hns,
        Option.map_some, hnodes]
    | _ => cases hending
  | otherwise position =>
    cases ending' with
    | otherwise position' => exact hT.failAt rfl
    | _ => cases hending
  | elseIf next position =>
    cases ending' with
    | elseIf next' position' => exact hT.failAt rfl
    | _ => cases hending

omit h in
theorem afterLoopBody_congr (opened opened' : Position) {body body' : Block}
    (hbody : body.unplaced lit = body'.unplaced lit) :
    T (InvImage Eq (List.map (Node.unplaced lit))) (afterLoopBody opened body)
      (afterLoopBody opened' body') := by
  obtain ⟨nodes, ending⟩ := body
  obtain ⟨nodes', ending'⟩ := body'
  obtain ⟨hnodes, hending⟩ := Block.mk.inj hbody
  cases ending with
  | endOfText =>
    cases ending' with
    | endOfText => exact hT.unexpected rfl
    | _ => cases hending
  | finish position =>
    cases ending' with
    | finish position' => exact hT.pure hnodes
    | _ => cases hending
  | otherwise position =>
    cases ending' with
    | otherwise position' => exact hT.failAt rfl
    | _ => cases hending
  | elseIf next position =>
    cases ending' with
    | elseIf next' position' => exact hT.failAt rfl
    | _ => cases hending

variable (hblock : T (InvImage Eq (Block.unplaced lit)) inner.block inner.block)
include hblock

omit h in
theorem afterBody_congr (opened opened' : Position) (limit : Nat)
    (hmore : ∀ {condition condition' : Expr},
      condition.unplaced lit = condition'.unplaced lit →
        T (InvImage Eq (branchesUnplaced lit)) (branches inner opened limit condition)
          (branches inner opened' limit condition'))
    {condition condition' : Expr} (hcondition : condition.unplaced lit = condition'.unplaced lit)
    {body body' : Block} (hbody : body.unplaced lit = body'.unplaced lit) :
    T (InvImage Eq (branchesUnplaced lit)) (afterBody inner opened limit condition body)
      (afterBody inner opened' limit condition' body') := by
  obtain ⟨nodes, ending⟩ := body
  obtain ⟨nodes', ending'⟩ := body'
  obtain ⟨hnodes, hending⟩ := Block.mk.inj hbody
  cases ending with
  | endOfText =>
    cases ending' with
    | endOfText => exact hT.unexpected rfl
    | _ => cases hending
  | finish position =>
    cases ending' with
    | finish position' =>
      refine hT.pure ?_
      simp only [InvImage, branchesUnplaced, List.map_cons, List.map_nil, hcondition, hnodes]
    | _ => cases hending
  | elseIf next position =>
    cases ending' with
    | elseIf next' position' =>
      refine hT.bind_on (hmore (Ending.elseIf.inj hending).1) fun more more' hmore => hT.pure ?_
      obtain ⟨hbodies, hlast⟩ := Prod.mk.inj hmore
      simp only [InvImage, branchesUnplaced, List.map_cons, hcondition, hnodes, hbodies, hlast]
    | _ => cases hending
  | otherwise position =>
    cases ending' with
    | otherwise position' =>
      exact hT.bind_on hblock fun last last' hlast =>
        afterLastBody_congr hT opened opened' hcondition hnodes hlast
    | _ => cases hending

omit h in
theorem branches_congr (opened opened' : Position) : (limit : Nat) →
    {condition condition' : Expr} → condition.unplaced lit = condition'.unplaced lit →
      T (InvImage Eq (branchesUnplaced lit)) (branches inner opened limit condition)
        (branches inner opened' limit condition')
  | 0, _, _, _ => hT.unexpected rfl
  | limit + 1, _, _, hcondition => by
      rw [branches_succ, branches_succ]
      exact hT.bind_on hblock fun body body' hbody =>
        afterBody_congr hT hblock opened opened' limit (branches_congr opened opened' limit)
          hcondition hbody

omit h in
theorem loopBody_congr (opened opened' : Position) :
    T (InvImage Eq (List.map (Node.unplaced lit))) (loopBody inner opened)
      (loopBody inner opened') := by
  rw [loopBody_eq, loopBody_eq]
  exact hT.bind_on hblock fun body body' hbody => afterLoopBody_congr hT opened opened' hbody

omit h in
theorem proceed_congr (position position' : Position) {d d' : Draft}
    (hd : d.unplaced lit = d'.unplaced lit) : (word : Directive) → {p p' : Head word} →
      Head.unplaced lit word p = Head.unplaced lit word p' →
        T (InvImage Eq (Step.unplaced lit)) (proceed inner position d word p)
          (proceed inner position' d' word p') := by
  have hadd {node node' : Node} (hnode : node.unplaced lit = node'.unplaced lit) :
      InvImage Eq (Step.unplaced lit) (.goOn (d.add node)) (.goOn (d'.add node')) := by
    simp only [InvImage, Step.unplaced, Draft.add_unplaced, hd, hnode]
  have hdone {ending ending' : Ending} (hending : ending.unplaced lit = ending'.unplaced lit) :
      InvImage Eq (Step.unplaced lit) (.done ⟨d.finish, ending⟩) (.done ⟨d'.finish, ending'⟩) := by
    simp only [InvImage, Step.unplaced, Block.unplaced, Draft.finish_eq hd, hending]
  intro word p p' hp
  cases word with
  | assign =>
    obtain ⟨htarget, hvalue⟩ := Prod.mk.inj hp
    refine hT.pure (hadd ?_)
    simp only [Node.unplaced, htarget, hvalue]
  | ifThen =>
    refine hT.bind_on (branches_congr hT hblock position position' _ hp) fun q q' hq =>
      hT.pure (hadd ?_)
    obtain ⟨hbranches, hlast⟩ := Prod.mk.inj hq
    simp only [unplaced_conditional, hbranches, hlast]
  | elseIf =>
    refine hT.pure (hdone ?_)
    exact congrArg (Ending.elseIf · .start) hp
  | otherwise => exact hT.pure (hdone rfl)
  | finish => exact hT.pure (hdone rfl)
  | forEach =>
    obtain ⟨hname, hitems⟩ := Prod.mk.inj hp
    refine hT.bind_on (loopBody_congr hT hblock position position') fun ns ns' hns =>
      hT.pure (hadd ?_)
    simp only [Node.unplaced, unplacedNodes_eq_map, hname, hitems, hns]
  | leave => exact hT.pure (hadd rfl)
  | stop => exact hT.pure (hadd rfl)
  | parse => exact hT.pure (hadd (congrArg (Node.parse · .start) hp))
  | insert => exact hT.pure (hadd (congrArg (Node.insert · .start) hp))

omit h hblock in
theorem blockFrom_congr (hstep : ∀ {d d' : Draft}, d.unplaced lit = d'.unplaced lit →
      T (InvImage Eq (Step.unplaced lit)) (step inner d) (step inner d')) :
    (limit : Nat) → {d d' : Draft} → d.unplaced lit = d'.unplaced lit →
      T (InvImage Eq (Block.unplaced lit)) (blockFrom inner limit d) (blockFrom inner limit d')
  | 0, d, d', hd => by
      refine hT.pure ?_
      simp only [InvImage, Block.unplaced, Draft.finish_eq hd]
  | limit + 1, d, d', hd => by
      refine hT.bind_on (hstep hd) fun s s' hs => ?_
      cases s with
      | goOn d =>
        cases s' with
        | goOn d' => exact blockFrom_congr hstep limit (Step.goOn.inj hs)
        | done b => cases hs
      | done b =>
        cases s' with
        | goOn d => cases hs
        | done b' => exact hT.pure (Step.done.inj hs)

end

theorem head_tracks : (word : Directive) →
    Tracks lit after after' indented (InvImage Eq (Head.unplaced lit word)) (head inner word)
      (head inner word)
  | .assign => assignment_tracks h
  | .forEach => loopHead_tracks h
  | .ifThen | .elseIf | .parse | .insert => argument_tracks h _
  | .otherwise | .finish | .leave | .stop => .pure rfl

theorem directive_tracks (position position' : Position) (indent : Option Nat) {d d' : Draft}
    (hd : d.unplaced lit = d'.unplaced lit) (word : Directive) :
    Tracks lit [] [] True (InvImage Eq (Step.unplaced lit))
      (directive inner position indent d word) (directive inner position' indent d' word) := by
  rw [directive_eq, directive_eq]
  exact (head_tracks h word).bind_on fun p p' hp => (gobble_tracks indent hd).bind_on
    fun d d' hd => proceed_congr Tracks.congruence h.block position position' hd word hp

theorem hash_tracks {d d' : Draft} (hd : d.unplaced lit = d'.unplaced lit) :
    Tracks lit [] [] True (InvImage Eq (Step.unplaced lit)) (hash inner d) (hash inner d') := by
  have hgoOn {d d' : Draft} (hd : d.unplaced lit = d'.unplaced lit) :
      InvImage Eq (Step.unplaced lit) (.goOn d) (.goOn d') :=
    congrArg Step.goOn hd
  refine .rest_bind fun cs => ?_
  split
  · exact (lineComment_tracks hd).bind_on fun _ _ hd => .pure (hgoOn hd)
  · exact (blockComment_tracks hd).bind_on fun _ _ hd => .pure (hgoOn hd)
  · exact (verbatim_tracks hd).bind_on fun _ _ hd => .pure (hgoOn hd)
  · split
    · refine .get_bind fun start start' hstart => (Tracks.skip _).bind_eq fun _ => ?_
      rw [hstart.indent trivial]
      exact directive_tracks h _ _ _ hd _
    · exact (Tracks.skip 1).bind_eq fun _ => .pure (hgoOn (congrArg (Draft.push · '#') hd))

theorem step_tracks {d d' : Draft} (hd : d.unplaced lit = d'.unplaced lit) :
    Tracks lit [] [] True (InvImage Eq (Step.unplaced lit)) (step inner d) (step inner d') := by
  have hpush (c : Char) : InvImage Eq (Step.unplaced lit) (.goOn (d.push c)) (.goOn (d'.push c)) :=
    congrArg (fun d : Draft => Step.goOn (d.push c)) hd
  refine Tracks.peek?.bind_eq fun c? => ?_
  split
  · refine .pure ?_
    simp only [InvImage, Step.unplaced, Block.unplaced, Draft.finish_eq hd]
  · exact (escape_tracks hd).bind_on fun _ _ hd => .pure (congrArg Step.goOn hd)
  · refine (reference?_tracks h).bind_on fun r? r?' hr => ?_
    cases r? with
    | some r =>
      cases r?' with
      | some r' =>
        refine .pure ?_
        have hr : r.unplaced lit = r'.unplaced lit := Option.some.inj hr
        simp only [InvImage, Step.unplaced, Draft.add_unplaced, hd, Node.unplaced, hr]
      | none => cases hr
    | none =>
      cases r?' with
      | some r' => cases hr
      | none => exact (Tracks.skip 1).bind_eq fun _ => .pure (hpush _)
  · exact hash_tracks h hd
  · exact (Tracks.skip 1).bind_eq fun _ => .pure (hpush _)

theorem block_tracks :
    Tracks lit [] [] True (InvImage Eq (Block.unplaced lit)) (block inner) (block inner) :=
  blockFrom_congr Tracks.congruence (step_tracks h) _ rfl

end

end Grammar

/-- **Readers do not depend on the context.** What is read from a text is read, places apart, at
any other place of a source, and before any text that follows a closing bracket or a line feed. -/
theorem Inner.upTo_tracks (lit : String → String) : (limit : Nat) → (Inner.upTo limit).Tracks lit
  | 0 => ⟨fun _ _ _ => .unexpected rfl, .pure rfl⟩
  | limit + 1 =>
    ⟨fun _ _ _ => Grammar.expr_tracks (upTo_tracks lit limit),
      Grammar.block_tracks (upTo_tracks lit limit)⟩

end GatewayMapping.Template
