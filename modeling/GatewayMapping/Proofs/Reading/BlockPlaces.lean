import Mathlib.Data.List.Induction
import GatewayMapping.Proofs.Reading.WholeLines

/-!
# Places at block level

While a source is read, blocks are read part by part: the source itself, the bodies of conditions
and the bodies of loops. `BlockAt` says that a block has been read up to a place, with what it has
so far. What has been read last before such a place is the end of a line, a character that is no
blank, or a blank that the block has taken as a character of its text; so all blanks of an
indentation are characters of the text (`BlockAt.exists_lineStart`).

## Main definitions

* `Grammar.BranchAt`: where a body of a condition begins.
* `Grammar.BlockAt`: a place at block level.

## Main results

* `Grammar.BlockAt.exists_lineStart`: the block before the indentation of a place.
-/

namespace GatewayMapping.Template.Grammar

/-- A body of the condition that begins at `cur` begins at the last cursor. Another body may follow
it. -/
inductive BranchAt (inner : Inner) (d : Draft) (cur : Cursor) : Cursor → Prop
  | first {condition : Head .ifThen} {d' : Draft} {cur' : Cursor}
      (h : DirectiveAt inner d cur .ifThen condition d' cur') : BranchAt inner d cur cur'
  | next {cur₁ cur' : Cursor} {ns : List Node} {condition : Expr} {position : Position}
      (h : BranchAt inner d cur cur₁)
      (hbody : inner.block cur₁ = .ok (⟨ns, .elseIf condition position⟩, cur')) :
      BranchAt inner d cur cur'

/-- A place at block level in the source at `start`: a block has been read up to a cursor, and a
draft is what it has so far. -/
inductive BlockAt (inner : Inner) (start : Cursor) : Draft → Cursor → Prop
  | source : BlockAt inner start .empty start
  | part {d d' : Draft} {cur cur' : Cursor} (h : BlockAt inner start d cur)
      (hpart : step inner d cur = .ok (.goOn d', cur')) : BlockAt inner start d' cur'
  | branch {d : Draft} {cur cur' : Cursor} (h : BlockAt inner start d cur)
      (hbranch : BranchAt inner d cur cur') : BlockAt inner start .empty cur'
  | otherwise {d : Draft} {cur cur₁ cur' : Cursor} {ns : List Node} {position : Position}
      (h : BlockAt inner start d cur) (hbranch : BranchAt inner d cur cur₁)
      (hbody : inner.block cur₁ = .ok (⟨ns, .otherwise position⟩, cur')) :
      BlockAt inner start .empty cur'
  | loop {d d' : Draft} {cur cur' : Cursor} {p : Head .forEach} (h : BlockAt inner start d cur)
      (hloop : DirectiveAt inner d cur .forEach p d' cur') : BlockAt inner start .empty cur'

section

variable {inner : Inner} {start : Cursor} (h : inner.Shrinks)
  (hblock : ∀ cur b cur', inner.block cur = .ok (b, cur') → b.ending ≠ .endOfText →
    cur.EndsUnblank cur')
include h hblock

theorem BranchAt.unblank {d : Draft} {cur cur' : Cursor} (hbranch : BranchAt inner d cur cur') :
    cur.EndsUnblank cur' := by
  induction hbranch with
  | first hdirective => exact directiveAt_unblank h hdirective
  | next _ hbody ih => exact (hblock _ _ _ hbody nofun).of_suffix ih.suffix

theorem BlockAt.suffix {d : Draft} {cur : Cursor} (hplace : BlockAt inner start d cur) :
    cur.rest <:+ start.rest := by
  induction hplace with
  | source => exact List.suffix_rfl
  | part _ hpart ih => exact (step_shrinks h _ _ _ _ hpart).trans ih
  | branch _ hbranch ih => exact (hbranch.unblank h hblock).suffix.trans ih
  | otherwise _ hbranch hbody ih =>
    exact (h.block _ _ _ hbody).trans ((hbranch.unblank h hblock).suffix.trans ih)
  | loop _ hloop ih => exact (directiveAt_unblank h hloop).suffix.trans ih

/-- A place at block level is the beginning of the source, or it stands after a character of the
text of a block, or after the end of a line or something that is no blank. -/
theorem BlockAt.cases_last {d : Draft} {cur : Cursor} (hplace : BlockAt inner start d cur) :
    (d = .empty ∧ cur = start) ∨
      (∃ c d₁ cur₁, BlockAt inner start d₁ cur₁ ∧ cur₁.rest = c :: cur.rest ∧ d = d₁.push c ∧
        cur = cur₁.skip 1) ∨
      start.EndsUnblank cur := by
  cases hplace with
  | source => exact .inl ⟨rfl, rfl⟩
  | @part d₁ _ cur₁ _ hplace hpart =>
    refine .inr ?_
    have hcur₁ : cur₁.rest ≠ [] := by
      intro hnil
      rw [step_of_nil hnil] at hpart
      cases hpart
    obtain ⟨c, hrest, hgoOn, hcur⟩ | hunblank := step_unblank h hblock hcur₁ hpart
    · exact .inl ⟨c, d₁, cur₁, hplace, hrest, Step.goOn.inj hgoOn, hcur⟩
    · exact .inr (hunblank.of_suffix (hplace.suffix h hblock))
  | branch hplace hbranch =>
    exact .inr (.inr ((hbranch.unblank h hblock).of_suffix (hplace.suffix h hblock)))
  | otherwise hplace hbranch hbody =>
    refine .inr (.inr ((hblock _ _ _ hbody nofun).of_suffix ?_))
    exact (hbranch.unblank h hblock).suffix.trans (hplace.suffix h hblock)
  | loop hplace hloop =>
    exact .inr (.inr ((directiveAt_unblank h hloop).of_suffix (hplace.suffix h hblock)))

/-- The blanks between the beginning of a line and a place at block level are characters of the text
of the block. -/
theorem BlockAt.exists_lineStart {lines blanks back : List Char} (hlines : WholeLines lines)
    (hblanks : ∀ c ∈ blanks, isInlineBlank c = true) (hback : back ≠ [])
    (hstart : start.rest = lines ++ (blanks ++ back)) (hindent : start.indent = some 0) {d : Draft}
    {cur : Cursor} (hplace : BlockAt inner start d cur) (hcur : cur.rest = back) :
    ∃ d₀ line, BlockAt inner start d₀ line ∧ line.rest = blanks ++ back ∧ line.indent = some 0 ∧
      d = d₀.append blanks ∧ cur = line.skip blanks.length := by
  induction blanks using List.reverseRecOn generalizing d cur back with
  | nil =>
    have hpasses {c : Char} (hpasses : start.Passes c cur) : cur.indent = some 0 := by
      obtain ⟨front, -, hrest, -⟩ := id hpasses
      rw [hstart, hcur, List.nil_append, List.append_cons] at hrest
      obtain rfl := List.append_cancel_right hrest
      exact (hlines c (List.getLast?_concat ..) ▸ hpasses).indent
    refine ⟨d, cur, hplace, hcur, ?_, rfl, rfl⟩
    obtain ⟨-, rfl⟩ | ⟨c, d₁, cur₁, hplace₁, hrest, -, rfl⟩ | hnil | ⟨c, -, hunblank⟩ :=
      hplace.cases_last h hblock
    · exact hindent
    · exact hpasses ((Cursor.passes_next hrest).of_suffix (hplace₁.suffix h hblock))
    · exact absurd (hcur.symm.trans hnil) hback
    · exact hpasses hunblank
  | append_singleton blanks c ih =>
    have hc := hblanks c (List.mem_append_right _ (List.mem_singleton_self c))
    have hpassed {c' : Char} {front : List Char} (hrest : start.rest = front ++ c' :: back) :
        c' = c := by
      rw [hstart, List.append_assoc, ← List.append_assoc] at hrest
      exact (List.cons.inj (List.append_inj_right' hrest rfl)).1.symm
    obtain ⟨-, rfl⟩ | ⟨c', d₁, cur₁, hplace₁, hrest, rfl, rfl⟩ | hnil | ⟨c', hc', hunblank⟩ :=
      hplace.cases_last h hblock
    · have hlength := congrArg List.length (hcur.symm.trans hstart)
      simp only [List.length_append, List.length_singleton] at hlength
      omega
    · obtain ⟨front, hfront⟩ := hplace₁.suffix h hblock
      rw [hrest, hcur] at hfront
      obtain rfl := hpassed hfront.symm
      rw [hcur] at hrest
      obtain ⟨d₀, line, hplace₀, hline, hline_indent, rfl, rfl⟩ :=
        ih (fun c hc => hblanks c (List.mem_append_left _ hc)) (List.cons_ne_nil _ _)
          (by rw [hstart, List.append_assoc]; rfl) hplace₁ hrest
      refine ⟨d₀, line, hplace₀, by rw [hline, List.append_assoc]; rfl, hline_indent, ?_, ?_⟩
      · rw [Draft.append, Draft.append, Draft.push, List.reverse_concat]
        rfl
      · rw [Cursor.skip_skip, List.length_append, List.length_singleton]
    · exact absurd (hcur.symm.trans hnil) hback
    · obtain ⟨front, _, hrest, -⟩ := hunblank
      rw [hcur] at hrest
      rw [hpassed hrest, hc] at hc'
      cases hc'

end

end GatewayMapping.Template.Grammar
