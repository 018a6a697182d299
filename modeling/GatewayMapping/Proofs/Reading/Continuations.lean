import GatewayMapping.Proofs.Reading.BlockPlaces
import GatewayMapping.Proofs.Reading.Limit

/-!
# What the rest of a source decides

From a place at block level on, the rest of the block decides what is read of the whole source. So
two sources that begin with the same lines are read alike if the blocks at a place behind these
lines are read alike from there on (`Grammar.BlockAt.carries`).

## Main definitions

* `Read.Alike`: results that are the same, places apart.
* `Grammar.Counterpart`: a place in one source and one in another, from which on the sources are
  read alike if the blocks are.

## Main results

* `Grammar.BlockAt.carries`: a place at block level in another source with the same lines.
-/

namespace GatewayMapping.Template

variable {α β : Type}

/-- The results are the same, places apart, and leave the same text, or they are faults that are the
same, places apart. -/
def Read.Alike (lit : String → String) (R : α → α → Prop) :
    Except SyntaxError (α × Cursor) → Except SyntaxError (α × Cursor) → Prop
  | .ok (a, cur), .ok (a', cur') => R a a' ∧ cur.Extends [] [] True cur'
  | .error e, .error e' => e.fault.unplaced lit = e'.fault.unplaced lit
  | _, _ => False

namespace Read

variable {lit : String → String} {R : α → α → Prop} {S : β → β → Prop} {cur cur' : Cursor}

/-- With nothing added, readers that track each other have the same results. -/
theorem Tracks.alike {r r' : Read α} (h : Tracks lit [] [] True R r r')
    (hext : cur.Extends [] [] True cur') : Alike lit R (r cur) (r' cur') := by
  cases hr : r cur with
  | error e =>
    obtain ⟨e', hr', he⟩ := h.fails ⟨rfl, rfl⟩ hext hr
    rw [hr']
    exact he
  | ok p =>
    obtain ⟨a', cur₁', hr', hR, hext₁⟩ := h.follows hext hr (.inl ⟨rfl, rfl⟩)
    rw [hr']
    exact ⟨hR, hext₁⟩

theorem Alike.bind {x x' : Read α} {f f' : α → Read β} (hx : Alike lit R (x cur) (x' cur'))
    (hf : ∀ a a', R a a' → Tracks lit [] [] True S (f a) (f' a')) :
    Alike lit S ((x >>= f) cur) ((x' >>= f') cur') := by
  change Alike lit S (x cur >>= fun p => f p.1 p.2) (x' cur' >>= fun p => f' p.1 p.2)
  cases hxa : x cur with
  | error e =>
    cases hxa' : x' cur' with
    | error e' =>
      rw [hxa, hxa'] at hx
      exact hx
    | ok p' =>
      rw [hxa, hxa'] at hx
      exact hx.elim
  | ok p =>
    cases hxa' : x' cur' with
    | error e' =>
      rw [hxa, hxa'] at hx
      exact hx.elim
    | ok p' =>
      rw [hxa, hxa'] at hx
      exact (hf p.1 p'.1 hx.1).alike hx.2

end Read

namespace Grammar

open Read (Alike Tracks bind_eq_ok_iff)

/-! ### Limits at a place -/

section

variable {limit : Nat} {cur cur' : Cursor} (hlimit : cur.rest.length ≤ limit)
include hlimit

/-- A block goes on after a part. The limit of its parts does not matter, as it exceeds what is
left. -/
theorem blockFrom_of_part {d d' : Draft}
    (hpart : step (Inner.upTo limit) d cur = .ok (.goOn d', cur')) :
    blockFrom (Inner.upTo limit) (limit + 1) d cur =
      blockFrom (Inner.upTo limit) (limit + 1) d' cur' := by
  have hagree := Inner.upTo_agree (Nat.le_refl limit) (Nat.le_refl limit)
  have hcur' := (step_shrinks (Inner.upTo_shrinks limit) d).length_le hpart
  have hmore := blockFrom_agree hagree (Nat.le_succ limit) (Nat.le_refl limit)
    (Nat.le_succ limit) d' cur' (Nat.le_trans hcur' hlimit)
  rw [← hmore]
  change (step (Inner.upTo limit) d cur >>= fun p => _) = _
  rw [hpart]
  rfl

/-- An inner block is read as any block that begins here. -/
theorem block_eq_blockFrom :
    (Inner.upTo limit).block cur = blockFrom (Inner.upTo limit) (limit + 1) .empty cur := by
  rw [(Inner.upTo_agree (Nat.le_refl limit) (Nat.le_succ limit)).block cur hlimit]
  change block (Inner.upTo limit) cur = _
  rw [block, Inner.limit_upTo]

end

theorem branches_limit {limit : Nat} {cur : Cursor} (hlimit : cur.rest.length < limit)
    (opened : Position) (condition : Expr) :
    branches (Inner.upTo limit) opened limit condition cur =
      branches (Inner.upTo limit) opened (limit + 1) condition cur :=
  branches_agree (Inner.upTo_agree (Nat.le_refl limit) (Nat.le_refl limit)) opened
    (Nat.le_of_lt hlimit) hlimit (Nat.lt_succ_of_lt hlimit) condition cur (Nat.le_refl _)

/-- Blocks are read alike if their first parts are. -/
theorem alike_blockFrom {lit : String → String} {limit : Nat} {d d' : Draft} {cur cur' : Cursor}
    (h : Alike lit (InvImage Eq (Step.unplaced lit)) (step (Inner.upTo limit) d cur)
      (step (Inner.upTo limit) d' cur')) :
    Alike lit (InvImage Eq (Block.unplaced lit)) (blockFrom (Inner.upTo limit) (limit + 1) d cur)
      (blockFrom (Inner.upTo limit) (limit + 1) d' cur') := by
  have hstep := @step_tracks lit _ (Inner.upTo_tracks lit limit)
  refine h.bind fun s s' hs => ?_
  cases s with
  | goOn d =>
    cases s' with
    | goOn d' => exact blockFrom_congr Tracks.congruence hstep limit (Step.goOn.inj hs)
    | done b => cases hs
  | done b =>
    cases s' with
    | goOn d => cases hs
    | done b' => exact .pure (Step.done.inj hs)

/-! ### Places in two sources -/

section

variable (lit : String → String) (after after' : List Char) (limit : Nat) (goal : Prop)

/-- A place in one source and its counterpart in another one, each with what a block has there.
They are in the same lines, and if the blocks are read alike from there on the goal is reached. -/
structure Counterpart (d : Draft) (cur : Cursor) (d' : Draft) (cur' : Cursor) : Prop where
  drafts : d.unplaced lit = d'.unplaced lit
  lines : cur.InLines after after' cur'
  length_le : cur.rest.length ≤ limit
  length_le' : cur'.rest.length ≤ limit
  decides : Alike lit (InvImage Eq (Block.unplaced lit))
    (blockFrom (Inner.upTo limit) (limit + 1) d cur)
    (blockFrom (Inner.upTo limit) (limit + 1) d' cur') → goal

/-- A body of a condition in one source and its counterpart in another one, each with the condition
that it depends on. If the bodies are read alike from there on the goal is reached. -/
structure BranchCounterpart (opened opened' : Position) (condition : Expr) (cur : Cursor)
    (condition' : Expr) (cur' : Cursor) : Prop where
  conditions : condition.unplaced lit = condition'.unplaced lit
  lines : cur.InLines after after' cur'
  length_le : cur.rest.length ≤ limit
  length_le' : cur'.rest.length ≤ limit
  decides : Alike lit (InvImage Eq (branchesUnplaced lit))
    (branches (Inner.upTo limit) opened (limit + 1) condition cur)
    (branches (Inner.upTo limit) opened' (limit + 1) condition' cur') → goal

end

section

variable {lit : String → String} {after after' : List Char} (hafter : after ≠ []) {limit : Nat}
  {goal : Prop} {d d' : Draft} {cur cur' cur₁ : Cursor}
  (hplace : Counterpart lit after after' limit goal d cur d' cur')
include hafter hplace

/-- A body of a condition has a counterpart, and what is read from it on decides what is read of the
condition. -/
theorem Counterpart.branchAt (hbranch : BranchAt (Inner.upTo limit) d cur cur₁)
    (hleft : after <:+ cur₁.rest) :
    ∃ condition condition' cur₁', BranchCounterpart lit after after' limit
      (Alike lit (InvImage Eq (Step.unplaced lit)) (step (Inner.upTo limit) d cur)
        (step (Inner.upTo limit) d' cur'))
      cur.position cur'.position condition cur₁ condition' cur₁' := by
  have htracks := Inner.upTo_tracks lit limit
  have hlimit := hplace.length_le
  have hlimit' := hplace.length_le'
  induction hbranch with
  | @first condition d₁ cur₁ hdirective =>
    obtain ⟨condition', d₁', cur₁', hdirective', hcondition, hd₁, hlines₁⟩ :=
      directiveAt_carries hafter htracks hplace.drafts hplace.lines hdirective hleft
    have hcur₁ := (directiveAt_unblank htracks.shrinks hdirective).suffix.length_le
    have hcur₁' := (directiveAt_unblank htracks.shrinks hdirective').suffix.length_le
    refine ⟨condition, condition', cur₁', hcondition, hlines₁, by omega, by omega, fun h => ?_⟩
    rw [hdirective.step_eq, hdirective'.step_eq, proceed_ifThen, proceed_ifThen,
      Inner.limit_upTo]
    refine h.bind fun q q' hq => .pure ?_
    obtain ⟨hbranches, hlast⟩ := Prod.mk.inj hq
    simp only [InvImage, Step.unplaced, Draft.add_unplaced, hd₁, unplaced_conditional, hbranches,
      hlast]
  | @next cur₁ cur₂ ns next position hbranch hbody ih =>
    have hshrinks := Inner.upTo_shrinks limit
    have htakes := Inner.upTo_takes limit
    obtain ⟨condition, condition', cur₁', hbefore⟩ :=
      ih (hleft.trans (hshrinks.block _ _ _ hbody))
    have hcur₁ := hbefore.length_le
    have hcur₁' := hbefore.length_le'
    obtain ⟨⟨ns', ending'⟩, cur₂', hbody', hblock, hlines₂⟩ :=
      (Inner.upTo_carries lit hafter after' limit).carries hbefore.lines _ _ hbody hleft
    obtain ⟨hnodes, hending⟩ := Block.mk.inj hblock
    cases ending' with
    | elseIf next' position' =>
      have hcur₂ := htakes _ _ _ hbody (by simp)
      have hcur₂' := htakes _ _ _ hbody' (by simp)
      refine ⟨next, next', cur₂', (Ending.elseIf.inj hending).1, hlines₂, by omega, by omega,
        fun h => hbefore.decides ?_⟩
      rw [← branches_limit (by omega), ← branches_limit (by omega)] at h
      rw [branches_of_body hbody, branches_of_body hbody']
      refine h.bind fun q q' hq => .pure ?_
      obtain ⟨hbodies, hlast⟩ := Prod.mk.inj hq
      simp only [InvImage, branchesUnplaced, List.map_cons, hbefore.conditions, hnodes, hbodies,
        hlast]
    | _ => cases hending

/-- Behind a part, the counterpart is behind the same part. -/
theorem Counterpart.part {d₁ : Draft}
    (hpart : step (Inner.upTo limit) d cur = .ok (.goOn d₁, cur₁)) (hleft : after <:+ cur₁.rest) :
    ∃ d₁' cur₁', Counterpart lit after after' limit goal d₁ cur₁ d₁' cur₁' := by
  have htracks := Inner.upTo_tracks lit limit
  have hblock := Inner.upTo_carries lit hafter after' limit
  obtain ⟨s', cur₁', hpart', hs, hlines₁⟩ :=
    (step_carries hafter htracks hblock hplace.drafts).carries hplace.lines _ _ hpart hleft
  cases s' with
  | goOn d₁' =>
    have hcur₁ := (step_shrinks htracks.shrinks _).length_le hpart
    have hcur₁' := (step_shrinks htracks.shrinks _).length_le hpart'
    refine ⟨d₁', cur₁', Step.goOn.inj hs, hlines₁, hcur₁.trans hplace.length_le,
      hcur₁'.trans hplace.length_le', fun h => hplace.decides ?_⟩
    rwa [blockFrom_of_part hplace.length_le hpart, blockFrom_of_part hplace.length_le' hpart']
  | done b => cases hs

/-- The counterpart of the beginning of a body is the beginning of a body. -/
theorem Counterpart.branch (hbranch : BranchAt (Inner.upTo limit) d cur cur₁)
    (hleft : after <:+ cur₁.rest) :
    ∃ cur₁', Counterpart lit after after' limit goal .empty cur₁ .empty cur₁' := by
  have htracks := Inner.upTo_tracks lit limit
  obtain ⟨condition, condition', cur₁', hbody⟩ := hplace.branchAt hafter hbranch hleft
  refine ⟨cur₁', rfl, hbody.lines, hbody.length_le, hbody.length_le',
    fun h => hplace.decides (alike_blockFrom (hbody.decides ?_))⟩
  rw [branches_succ, branches_succ]
  rw [← block_eq_blockFrom hbody.length_le, ← block_eq_blockFrom hbody.length_le'] at h
  exact h.bind fun body body' hb => afterBody_congr Tracks.congruence htracks.block _ _ _
    (branches_congr Tracks.congruence htracks.block _ _ limit) hbody.conditions hb

/-- The counterpart of the beginning of the last body is the beginning of the last body. -/
theorem Counterpart.otherwise {cur₂ : Cursor} {ns : List Node} {position : Position}
    (hbranch : BranchAt (Inner.upTo limit) d cur cur₁)
    (hbody : (Inner.upTo limit).block cur₁ = .ok (⟨ns, .otherwise position⟩, cur₂))
    (hleft : after <:+ cur₂.rest) :
    ∃ cur₂', Counterpart lit after after' limit goal .empty cur₂ .empty cur₂' := by
  have hshrinks := Inner.upTo_shrinks limit
  obtain ⟨condition, condition', cur₁', hbefore⟩ :=
    hplace.branchAt hafter hbranch (hleft.trans (hshrinks.block _ _ _ hbody))
  obtain ⟨⟨ns', ending'⟩, cur₂', hbody', hbodies, hlines₂⟩ :=
    (Inner.upTo_carries lit hafter after' limit).carries hbefore.lines _ _ hbody hleft
  obtain ⟨hnodes, hending⟩ := Block.mk.inj hbodies
  cases ending' with
  | otherwise position' =>
    have hcur₂ := (hshrinks.block.length_le hbody).trans hbefore.length_le
    have hcur₂' := (hshrinks.block.length_le hbody').trans hbefore.length_le'
    refine ⟨cur₂', rfl, hlines₂, hcur₂, hcur₂',
      fun h => hplace.decides (alike_blockFrom (hbefore.decides ?_))⟩
    rw [branches_of_body hbody, branches_of_body hbody']
    rw [← block_eq_blockFrom hcur₂, ← block_eq_blockFrom hcur₂'] at h
    exact h.bind fun last last' hlast =>
      afterLastBody_congr Tracks.congruence _ _ hbefore.conditions hnodes hlast
  | _ => cases hending

/-- The counterpart of the beginning of the body of a loop is one. -/
theorem Counterpart.loop {p : Head .forEach} {d₁ : Draft}
    (hloop : DirectiveAt (Inner.upTo limit) d cur .forEach p d₁ cur₁)
    (hleft : after <:+ cur₁.rest) :
    ∃ cur₁', Counterpart lit after after' limit goal .empty cur₁ .empty cur₁' := by
  have htracks := Inner.upTo_tracks lit limit
  obtain ⟨p', d₁', cur₁', hloop', hp, hd₁, hlines₁⟩ :=
    directiveAt_carries hafter htracks hplace.drafts hplace.lines hloop hleft
  have hcur₁ := (directiveAt_unblank htracks.shrinks hloop).suffix.length_le.trans hplace.length_le
  have hcur₁' :=
    (directiveAt_unblank htracks.shrinks hloop').suffix.length_le.trans hplace.length_le'
  refine ⟨cur₁', rfl, hlines₁, hcur₁, hcur₁', fun h => hplace.decides (alike_blockFrom ?_)⟩
  rw [hloop.step_eq, hloop'.step_eq, proceed_forEach, proceed_forEach, loopBody_eq, loopBody_eq]
  rw [← block_eq_blockFrom hcur₁, ← block_eq_blockFrom hcur₁'] at h
  have hbody := h.bind fun body body' hbody =>
    afterLoopBody_congr Tracks.congruence cur.position cur'.position hbody
  refine hbody.bind fun ns ns' hns => .pure ?_
  have hns : ns.map (Node.unplaced lit) = ns'.map (Node.unplaced lit) := hns
  obtain ⟨hname, hitems⟩ := Prod.mk.inj hp
  simp only [InvImage, Step.unplaced, Draft.add_unplaced, hd₁, Node.unplaced,
    unplacedNodes_eq_map, hname, hitems, hns]

end

/-- **What is read from a place on decides what is read of the source.** Two sources begin with the
same lines, and in one of them a place at block level stands in these lines or behind them. Then it
stands there in the other source too; and if the blocks are read alike from there on, the sources
are read alike. -/
theorem BlockAt.carries {after after' : List Char} (hafter : after ≠ []) {limit : Nat}
    (lit : String → String) {start start' : Cursor} (hlines : start.InLines after after' start')
    (hlimit : start.rest.length ≤ limit) (hlimit' : start'.rest.length ≤ limit) {d : Draft}
    {cur : Cursor} (hplace : BlockAt (Inner.upTo limit) start d cur) (hleft : after <:+ cur.rest) :
    ∃ d' cur', Counterpart lit after after' limit
      (Alike lit (InvImage Eq (Block.unplaced lit))
        (blockFrom (Inner.upTo limit) (limit + 1) .empty start)
        (blockFrom (Inner.upTo limit) (limit + 1) .empty start')) d cur d' cur' := by
  have hshrinks := Inner.upTo_shrinks limit
  have hunblank := Inner.upTo_unblank limit
  induction hplace with
  | source => exact ⟨.empty, start', rfl, hlines, hlimit, hlimit', id⟩
  | part hplace hpart ih =>
    obtain ⟨d', cur', hc⟩ := ih (hleft.trans (step_shrinks hshrinks _ _ _ _ hpart))
    exact hc.part hafter hpart hleft
  | branch hplace hbranch ih =>
    obtain ⟨d', cur', hc⟩ := ih (hleft.trans (hbranch.unblank hshrinks hunblank).suffix)
    exact ⟨.empty, hc.branch hafter hbranch hleft⟩
  | otherwise hplace hbranch hbody ih =>
    obtain ⟨d', cur', hc⟩ := ih ((hleft.trans (hshrinks.block _ _ _ hbody)).trans
      (hbranch.unblank hshrinks hunblank).suffix)
    exact ⟨.empty, hc.otherwise hafter hbranch hbody hleft⟩
  | loop hplace hloop ih =>
    obtain ⟨d', cur', hc⟩ := ih (hleft.trans (directiveAt_unblank hshrinks hloop).suffix)
    exact ⟨.empty, hc.loop hafter hloop hleft⟩

end Grammar
end GatewayMapping.Template
