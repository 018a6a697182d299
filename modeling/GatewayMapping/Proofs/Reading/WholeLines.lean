import GatewayMapping.Proofs.Reading.LastCharacter
import GatewayMapping.Proofs.Reading.Relocation

/-!
# Whole lines before other texts

Two sources may begin with the same lines and go on with different texts. A reader that stops at
the end of these lines or before has looked at nothing behind them: either it has left a line feed,
or it has taken the last one, and only what takes the end of its line does so. Hence a block reads
the lines alike in both sources (`Inner.upTo_carries`).

## Main definitions

* `WholeLines`: a text that is empty or ends with a line feed.
* `Cursor.InLines`: cursors before the same lines.
* `Read.CarriesAt`, `Read.Carries`: what is read of the lines is read of them in the other source.

## Main results

* `Grammar.step_carries`, `Inner.upTo_carries`: the parts of blocks and blocks are.
-/

namespace GatewayMapping.Template

variable {α β : Type}

/-! ### Lines -/

/-- The text is empty or ends with a line feed. -/
def WholeLines (cs : List Char) : Prop := ∀ c ∈ cs.getLast?, c = '\n'

namespace WholeLines

variable {cs ds : List Char}

theorem of_suffix (h : WholeLines cs) (hds : ds <:+ cs) : WholeLines ds := by
  obtain ⟨front, rfl⟩ := hds
  intro c hc
  refine h c ?_
  rw [List.getLast?_append, Option.mem_def.mp hc]
  rfl

theorem mem (h : WholeLines cs) (hne : cs ≠ []) : '\n' ∈ cs := by
  cases hlast : cs.getLast? with
  | none => exact absurd (List.getLast?_eq_none_iff.mp hlast) hne
  | some c => exact h c hlast ▸ List.mem_of_getLast? hlast

end WholeLines

/-- The cursors stand before the same lines. The sources go on with `after` and with `after'`. -/
structure Cursor.InLines (after after' : List Char) (cur cur' : Cursor) : Prop where
  lines : ∃ cs, WholeLines cs ∧ cur.rest = cs ++ after ∧ cur'.rest = cs ++ after'
  indent : cur'.indent = cur.indent

namespace Cursor.InLines

variable {after after' : List Char} {cur cur' cur₁ cur₁' : Cursor}

theorem toExtends (h : cur.InLines after after' cur') : cur.Extends after after' True cur' := by
  obtain ⟨cs, -, hrest, hrest'⟩ := h.lines
  exact ⟨⟨cs, hrest, hrest'⟩, fun _ => h.indent⟩

/-- Where none of the lines is left in one source, none is left in the other. -/
theorem rest_eq (h : cur.InLines after after' cur') (hcur : cur.rest = after) :
    cur'.rest = after' := by
  obtain ⟨cs, -, hrest, hrest'⟩ := h.lines
  rw [hcur, List.self_eq_append_left] at hrest
  rw [hrest', hrest, List.nil_append]

/-- What is left of whole lines are whole lines. -/
theorem exists_left (h : cur.InLines after after' cur') (hcur₁ : cur₁.rest <:+ cur.rest)
    (hafter : after <:+ cur₁.rest) : ∃ ds, WholeLines ds ∧ cur₁.rest = ds ++ after := by
  obtain ⟨cs, hcs, hrest, -⟩ := h.lines
  obtain ⟨ds, hds⟩ := hafter
  rw [hrest, ← hds, List.suffix_append_self_iff] at hcur₁
  exact ⟨ds, hcs.of_suffix hcur₁, hds.symm⟩

theorem of_extends (h : cur.InLines after after' cur') (hcur₁ : cur₁.rest <:+ cur.rest)
    (hext : cur₁.Extends after after' True cur₁') : cur₁.InLines after after' cur₁' := by
  obtain ⟨ds, hleft, hleft'⟩ := hext.rests
  obtain ⟨es, hes, hleft₁⟩ := h.exists_left hcur₁ ⟨ds, hleft.symm⟩
  obtain rfl := List.append_cancel_right (hleft₁.symm.trans hleft)
  exact ⟨⟨es, hes, hleft, hleft'⟩, hext.indent trivial⟩

/-- A line ends with a line feed. -/
theorem guarded (h : cur.InLines after after' cur') (hcur₁ : cur₁.rest <:+ cur.rest)
    (hafter : after <:+ cur₁.rest) (hne : cur₁.rest ≠ after) : Guarded after after' cur₁.rest := by
  obtain ⟨ds, hds, hleft⟩ := h.exists_left hcur₁ hafter
  refine .inr ⟨ds, ⟨'\n', hds.mem ?_, rfl⟩, hleft⟩
  rintro rfl
  exact hne hleft

/-- What ends with no white space leaves the line feed. -/
theorem ne_of_solid (h : cur.InLines after after' cur') (hsolid : cur.EndsSolid cur₁) :
    cur₁.rest ≠ after := by
  rintro rfl
  obtain ⟨cs, hcs, hrest, -⟩ := h.lines
  obtain ⟨c, hc, front, -, hfront, -⟩ := hsolid
  rw [hrest, List.append_cons] at hfront
  obtain rfl := List.append_cancel_right hfront
  rw [hcs c (List.getLast?_concat ..)] at hc
  cases hc

theorem skip (h : cur.InLines after after' cur') (hne : after ≠ []) {n : Nat}
    (hafter : after <:+ (cur.skip n).rest) : (cur.skip n).InLines after after' (cur'.skip n) := by
  refine h.of_extends ?_ (h.toExtends.skip n (.inr ?_))
  · rw [rest_skip]
    exact List.drop_suffix n cur.rest
  · have hlength := hafter.length_le
    have hpos := List.length_pos_iff.mpr hne
    rw [rest_skip, List.length_drop] at hlength
    omega

end Cursor.InLines

/-! ### Readers within lines -/

namespace Read

open Cursor (InLines)

variable {after after' : List Char} {R : α → α → Prop} {S : β → β → Prop}

/-- What `r` reads of the lines at `cur`, `r'` reads of them at `cur'`. -/
def CarriesAt (after after' : List Char) (R : α → α → Prop) (r r' : Read α) (cur cur' : Cursor) :
    Prop :=
  ∀ a cur₁, r cur = .ok (a, cur₁) → after <:+ cur₁.rest →
    ∃ a' cur₁', r' cur' = .ok (a', cur₁') ∧ R a a' ∧ cur₁.InLines after after' cur₁'

/-- What `r` reads of lines, `r'` reads of them before another text. -/
structure Carries (after after' : List Char) (R : α → α → Prop) (r r' : Read α) : Prop where
  shrinks : Shrinks r
  carries : ∀ {cur cur'}, cur.InLines after after' cur' → CarriesAt after after' R r r' cur cur'

theorem CarriesAt.bind {x x' : Read α} {f f' : α → Read β} {cur cur' : Cursor}
    (hx : CarriesAt after after' R x x' cur cur')
    (hf : ∀ a a', R a a' → Carries after after' S (f a) (f' a'))
    (hs : ∀ a, Shrinks (f a)) : CarriesAt after after' S (x >>= f) (x' >>= f') cur cur' := by
  intro b cur₂ h hafter
  obtain ⟨a, cur₁, hxa, hfb⟩ := bind_eq_ok_iff.mp h
  obtain ⟨a', cur₁', hxa', hR, hlines₁⟩ := hx a cur₁ hxa (hafter.trans (hs a _ _ _ hfb))
  obtain ⟨b', cur₂', hfb', hS, hlines₂⟩ := (hf a a' hR).carries hlines₁ b cur₂ hfb hafter
  exact ⟨b', cur₂', bind_eq_ok_iff.mpr ⟨a', cur₁', hxa', hfb'⟩, hS, hlines₂⟩

/-- What ends with no white space stops before the end of a line. -/
theorem CarriesAt.of_solid {lit : String → String} {r r' : Read α} {cur cur' : Cursor}
    (h : Tracks lit after after' True R r r') (hlines : cur.InLines after after' cur')
    (hsolid : ∀ a cur₁, r cur = .ok (a, cur₁) → cur.EndsSolid cur₁) :
    CarriesAt after after' R r r' cur cur' := by
  intro a cur₁ hr hafter
  have hcur₁ := h.shrinks cur a cur₁ hr
  have hguarded := hlines.guarded hcur₁ hafter (hlines.ne_of_solid (hsolid a cur₁ hr))
  obtain ⟨a', cur₁', hr', hR, hext⟩ := h.follows hlines.toExtends hr hguarded
  exact ⟨a', cur₁', hr', hR, hlines.of_extends hcur₁ hext⟩

namespace Carries

theorem pure {a a' : α} (ha : R a a') :
    Carries after after' R (Pure.pure a) (Pure.pure a') where
  shrinks := .pure a
  carries hlines _ _ h _ := by
    cases h
    exact ⟨a', _, rfl, ha, hlines⟩

theorem of_fails {r r' : Read α} (h : ∀ cur a cur', r cur ≠ .ok (a, cur')) :
    Carries after after' R r r' where
  shrinks cur a cur' hr := absurd hr (h cur a cur')
  carries _ _ _ hr := absurd hr (h _ _ _)

theorem bind {x x' : Read α} {f f' : α → Read β} (hx : Carries after after' R x x')
    (hf : ∀ a a', R a a' → Carries after after' S (f a) (f' a')) (hs : ∀ a, Shrinks (f a)) :
    Carries after after' S (x >>= f) (x' >>= f') where
  shrinks := hx.shrinks.bind hs
  carries hlines := CarriesAt.bind (hx.carries hlines) hf hs

theorem bind_on {γ : Type} {g : α → γ} {x x' : Read α} {f f' : α → Read β}
    (hx : Carries after after' (InvImage Eq g) x x')
    (hf : ∀ a a', g a = g a' → Carries after after' S (f a) (f' a')) :
    Carries after after' S (x >>= f) (x' >>= f') :=
  hx.bind hf fun a => (hf a a rfl).shrinks

/-- Characters that do not reach beyond the lines are passed in both. -/
theorem skip (hafter : after ≠ []) (n : Nat) :
    Carries after after' (fun _ _ => True) (Read.skip n) (Read.skip n) where
  shrinks := .skip n
  carries hlines _ _ hr hleft := by
    cases hr
    exact ⟨(), _, rfl, trivial, hlines.skip hafter hleft⟩

theorem congruence {lit : String → String} : Congruence lit (Carries after after') where
  pure := .pure
  failAt _ := .of_fails fun _ _ _ => nofun
  unexpected _ := .of_fails fun _ _ _ => nofun
  bind_on := .bind_on

end Carries

end Read

/-- A block is read of lines alike before another text. -/
def Inner.Carries (lit : String → String) (after after' : List Char) (inner : Inner) : Prop :=
  Read.Carries after after' (InvImage Eq (Block.unplaced lit)) inner.block inner.block

namespace Grammar

open Read (Shrinks Carries CarriesAt Tracks bind_eq_ok_iff)
open Cursor (InLines)

variable {lit : String → String} {after after' : List Char} {cur cur' : Cursor}

/-! ### What is seen in a line -/

section

variable {p : Char → Bool} {c : Char} {cs : List Char} (hc : c ∈ cs) (hp : p c = false)
  (rest : List Char)
include hc hp

theorem takeWhile_append_of_mem : (cs ++ rest).takeWhile p = cs.takeWhile p := by
  induction cs with
  | nil => cases hc
  | cons d cs ih =>
    by_cases hd : p d
    · obtain rfl | hc := List.mem_cons.mp hc
      · rw [hd] at hp
        cases hp
      · rw [List.cons_append, List.takeWhile_cons_of_pos hd, List.takeWhile_cons_of_pos hd, ih hc]
    · rw [List.cons_append, List.takeWhile_cons_of_neg hd, List.takeWhile_cons_of_neg hd]

theorem dropWhile_append_of_mem :
    (cs ++ rest).dropWhile p = cs.dropWhile p ++ rest ∧ c ∈ cs.dropWhile p := by
  induction cs with
  | nil => cases hc
  | cons d cs ih =>
    by_cases hd : p d
    · obtain rfl | hc := List.mem_cons.mp hc
      · rw [hd] at hp
        cases hp
      · rw [List.cons_append, List.dropWhile_cons_of_pos hd, List.dropWhile_cons_of_pos hd]
        exact ih hc
    · rw [List.cons_append, List.dropWhile_cons_of_neg hd, List.dropWhile_cons_of_neg hd]
      exact ⟨rfl, hc⟩

end

/-- What is found at the end of a line does not depend on the next one. -/
theorem blankLineEnd?_append {cs : List Char} (hcs : '\n' ∈ cs) (rest : List Char) :
    blankLineEnd? (cs ++ rest) = blankLineEnd? cs := by
  obtain ⟨hdrop, hmem⟩ := dropWhile_append_of_mem (p := isInlineBlank) hcs rfl rest
  rw [blankLineEnd?, blankLineEnd?, takeWhile_append_of_mem hcs rfl, hdrop]
  generalize cs.dropWhile isInlineBlank = left at hmem
  obtain _ | ⟨c, left⟩ := left
  · cases hmem
  by_cases hc : c = '\r'
  · subst hc
    obtain _ | ⟨d, left⟩ := left
    · simp at hmem
    · by_cases hd : d = '\n'
      · subst hd
        rfl
      · simp [hd]
  · by_cases hc' : c = '\n'
    · subst hc'
      rfl
    · simp [hc, hc']

/-- The word of a directive stands in one line. -/
theorem directive?_append_of_mem {cs : List Char} (hcs : '\n' ∈ cs) (rest : List Char) :
    directive? (cs ++ rest) = directive? cs := by
  have hword {cs : List Char} (hcs : '\n' ∈ cs) :
      ((cs ++ rest).drop (cs.takeWhile Char.isAlpha).length).head? =
        (cs.drop (cs.takeWhile Char.isAlpha).length).head? := by
    have hmem := (dropWhile_append_of_mem (p := Char.isAlpha) hcs rfl rest).2
    have hdrop : (cs.takeWhile Char.isAlpha ++ cs.dropWhile Char.isAlpha).drop
        (cs.takeWhile Char.isAlpha).length = cs.dropWhile Char.isAlpha := List.drop_left
    rw [List.takeWhile_append_dropWhile] at hdrop
    rw [List.drop_append_of_le_length (List.takeWhile_prefix _).length_le, hdrop]
    exact List.head?_append_of_ne_nil _ (List.ne_nil_of_mem hmem)
  obtain _ | ⟨c, cs⟩ := cs
  · cases hcs
  by_cases hc : c = '\x7b'
  · subst hc
    have hcs : '\n' ∈ cs := by simpa using hcs
    simp only [directive?, List.cons_append, List.head?_cons, decide_true, if_true, List.tail_cons,
      takeWhile_append_of_mem hcs (p := Char.isAlpha) rfl, hword hcs]
  · simp only [directive?, List.cons_append, List.head?_cons, Option.some.injEq, hc, decide_false,
      Bool.false_eq_true, if_false, Bool.false_and]
    rw [← List.cons_append, takeWhile_append_of_mem hcs rfl]

theorem mark_append {cs : List Char} (hcs : '\n' ∈ cs) (rest : List Char) :
    mark (cs ++ rest) = mark cs := by
  have hdirective := directive?_append_of_mem hcs rest
  obtain _ | ⟨c, cs⟩ := cs
  · cases hcs
  by_cases hc : c = '['
  · subst hc
    obtain _ | ⟨d, cs⟩ := cs
    · simp at hcs
    · by_cases hd : d = '['
      · subst hd
        rfl
      · simp only [List.cons_append] at hdirective
        simp [mark, hd, hdirective]
  · rw [List.cons_append] at hdirective
    by_cases hc' : c = '#'
    · subst hc'
      rfl
    · by_cases hc'' : c = '*'
      · subst hc''
        rfl
      · simp [mark, hc, hc', hc'', hdirective]

/-! ### Parts of blocks -/

section

variable (hafter : after ≠ [])
include hafter

theorem gobble_carries (indent : Option Nat) {d d' : Draft}
    (hd : d.unplaced lit = d'.unplaced lit) (hlines : cur.InLines after after' cur')
    (hne : cur.rest ≠ after) :
    CarriesAt after after' (InvImage Eq (Draft.unplaced lit)) (Read.gobble indent d)
      (Read.gobble indent d') cur cur' := by
  obtain ⟨cs, hcs, hrest, hrest'⟩ := hlines.lines
  have hmem : '\n' ∈ cs := hcs.mem (by rintro rfl; exact hne hrest)
  have hend : blankLineEnd? cur'.rest = blankLineEnd? cur.rest := by
    rw [hrest, hrest', blankLineEnd?_append hmem, blankLineEnd?_append hmem]
  intro d₁ cur₁ hr hleft
  obtain ⟨n, count, rfl, hcount, rfl, rfl⟩ | ⟨hnone, rfl, rfl⟩ := gobble_eq_ok_iff.mp hr
  · refine ⟨_, _, gobble_eq_ok_iff.mpr (.inl ⟨n, count, rfl, hend.trans hcount, rfl, rfl⟩), ?_,
      hlines.skip hafter hleft⟩
    exact congrArg (Draft.trimIndent · n) hd
  · refine ⟨_, _, gobble_eq_ok_iff.mpr (.inr ⟨?_, rfl, rfl⟩), hd, hlines⟩
    rwa [hend]

theorem lineComment_carries {d d' : Draft} (hd : d.unplaced lit = d'.unplaced lit)
    (hlines : cur.InLines after after' cur') (hne : cur.rest ≠ after) :
    CarriesAt after after' (InvImage Eq (Draft.unplaced lit)) (lineComment d) (lineComment d') cur
      cur' := by
  obtain ⟨cs, hcs, hrest, hrest'⟩ := hlines.lines
  have hmem : '\n' ∈ cs := hcs.mem (by rintro rfl; exact hne hrest)
  have htake (rest : List Char) := takeWhile_append_of_mem (p := (· ≠ '\n')) hmem rfl rest
  intro d₁ cur₁ hr hleft
  cases hr
  refine ⟨_, _, rfl, ?_, ?_⟩
  · rw [hlines.indent]
    cases cur.indent with
    | none => exact hd
    | some n => exact congrArg (Draft.trimIndent · n) hd
  · rw [Cursor.skipWhile, Cursor.skip_skip] at hleft ⊢
    have hskip := hlines.skip hafter hleft
    rw [Cursor.skipWhile, Cursor.skip_skip]
    rw [hrest, htake] at hskip ⊢
    rw [hrest', htake]
    exact hskip

/-- What is found in the lines is found there before another text. -/
theorem indexOf?_of_carried {needle : List Char} {k n : Nat}
    (hlines : cur.InLines after after' cur')
    (hleft : after <:+ (cur.skip (k + n + needle.length)).rest)
    (hfound : Text.indexOf? needle (cur.rest.drop k) = some n) :
    Text.indexOf? needle (cur'.rest.drop k) = some n ∧
      (cur'.rest.drop k).take n = (cur.rest.drop k).take n := by
  obtain ⟨cs, -, hrest, hrest'⟩ := hlines.lines
  have hlength := hleft.length_le
  have hpos := List.length_pos_iff.mpr hafter
  rw [Cursor.rest_skip, List.length_drop, hrest, List.length_append] at hlength
  have hk : k ≤ cs.length := by omega
  rw [hrest, List.drop_append_of_le_length hk] at hfound ⊢
  rw [hrest', List.drop_append_of_le_length hk]
  have hn : n + needle.length ≤ (cs.drop k).length := by
    rw [List.length_drop]
    omega
  rw [Text.indexOf?_append_iff hn] at hfound ⊢
  refine ⟨hfound, ?_⟩
  rw [List.take_append_of_le_length (by omega), List.take_append_of_le_length (by omega)]

theorem blockComment_carries {d d' : Draft} (hd : d.unplaced lit = d'.unplaced lit)
    (hlines : cur.InLines after after' cur') :
    CarriesAt after after' (InvImage Eq (Draft.unplaced lit)) (blockComment d) (blockComment d')
      cur cur' := by
  intro d₁ cur₁ hr hleft
  obtain ⟨n, hfound, hgobble⟩ := blockComment_eq_ok_iff.mp hr
  have hleft₁ := hleft.trans (gobble_shrinks _ _ _ _ _ hgobble)
  have hlines₁ := hlines.skip hafter hleft₁
  have hne := hlines.ne_of_solid (comment_solid hfound)
  obtain ⟨d₁', cur₁', hgobble', hd₁, hlines₁⟩ :=
    gobble_carries hafter cur.indent hd hlines₁ hne _ _ hgobble hleft
  refine ⟨d₁', cur₁', blockComment_eq_ok_iff.mpr ⟨n, ?_, ?_⟩, hd₁, hlines₁⟩
  · rw [Nat.add_comm n 4, show 4 + n = 2 + n + 2 by omega] at hleft₁
    exact (indexOf?_of_carried hafter hlines hleft₁ hfound).1
  · rwa [hlines.indent]

theorem verbatim_carries {d d' : Draft} (hd : d.unplaced lit = d'.unplaced lit)
    (hlines : cur.InLines after after' cur') :
    CarriesAt after after' (InvImage Eq (Draft.unplaced lit)) (verbatim d) (verbatim d') cur
      cur' := by
  intro d₁ cur₁ hr hleft
  obtain ⟨n, hfound, rfl, rfl⟩ := verbatim_eq_ok_iff.mp hr
  have hlines₁ := hlines.skip hafter hleft
  rw [show n + 6 = 3 + n + 3 by omega] at hleft
  obtain ⟨hfound', hcontent⟩ :=
    indexOf?_of_carried hafter hlines hleft hfound
  refine ⟨_, _, verbatim_eq_ok_iff.mpr ⟨n, hfound', rfl, rfl⟩, ?_, hlines₁⟩
  rw [hcontent]
  exact congrArg (Draft.append · _) hd

/-- A character is taken as text. -/
theorem push_carries {d d' : Draft} (hd : d.unplaced lit = d'.unplaced lit) (c : Char) :
    Carries after after' (InvImage Eq (Step.unplaced lit))
      (do Read.skip 1; return .goOn (d.push c)) (do Read.skip 1; return .goOn (d'.push c)) :=
  (Carries.skip hafter 1).bind
    (fun _ _ _ => .pure (congrArg (fun d : Draft => Step.goOn (d.push c)) hd)) fun _ => .pure _

section

variable {inner : Inner} (h : inner.Tracks lit)
include h

/-- A directive is read in its line. -/
theorem directiveAt_carries {d d' d₁ : Draft} (hd : d.unplaced lit = d'.unplaced lit)
    (hlines : cur.InLines after after' cur') {word : Directive} {p : Head word} {cur₂ : Cursor}
    (hr : DirectiveAt inner d cur word p d₁ cur₂) (hleft : after <:+ cur₂.rest) :
    ∃ p' d₁' cur₂', DirectiveAt inner d' cur' word p' d₁' cur₂' ∧
      Head.unplaced lit word p = Head.unplaced lit word p' ∧
        d₁.unplaced lit = d₁'.unplaced lit ∧ cur₂.InLines after after' cur₂' := by
  obtain ⟨cs, n, cur₁, hcur, hword, hhead, hgobble⟩ := hr
  have htracks : Tracks lit after after' True (InvImage Eq (Head.unplaced lit word))
      (head inner word) (head inner word) := head_tracks h word
  have hsolid := head_solid h.shrinks hcur hword hhead
  have hne := hlines.ne_of_solid hsolid
  have hleft₁ := hleft.trans (gobble_shrinks _ _ _ _ _ hgobble)
  have hcur₁ := htracks.shrinks _ _ _ hhead
  have hlines₀ := hlines.skip hafter (hleft₁.trans hcur₁)
  have hguarded := hlines.guarded hsolid.unblank.suffix hleft₁ hne
  obtain ⟨p', cur₁', hhead', hp, hext₁⟩ := htracks.follows hlines₀.toExtends hhead hguarded
  have hlines₁ := hlines₀.of_extends hcur₁ hext₁
  obtain ⟨d₁', cur₂', hgobble', hd₁, hlines₂⟩ :=
    gobble_carries hafter cur.indent hd hlines₁ hne _ _ hgobble hleft
  refine ⟨p', d₁', cur₂', ?_, hp, hd₁, hlines₂⟩
  obtain ⟨ds, hds, hrest, hrest'⟩ := hlines.lines
  cases ds with
  | nil =>
    obtain ⟨c, -, front, -, hfront, -⟩ := hsolid
    have hlength := hleft₁.length_le
    rw [← List.nil_append after, ← hrest, hfront, List.length_append, List.length_cons] at hlength
    omega
  | cons c es =>
    rw [hcur, List.cons_append] at hrest
    obtain ⟨rfl, rfl⟩ := List.cons.inj hrest
    have hmem : '\n' ∈ es := (List.mem_cons.mp (hds.mem (List.cons_ne_nil _ _))).resolve_left nofun
    rw [directive?_append_of_mem hmem] at hword
    refine ⟨es ++ after', n, cur₁', hrest', ?_, hhead', by rwa [hlines.indent]⟩
    exact (directive?_append_of_mem hmem after').trans hword

variable (hblock : inner.Carries lit after after')
include hblock

theorem hash_carries {d d' : Draft} (hd : d.unplaced lit = d'.unplaced lit)
    (hlines : cur.InLines after after' cur') {cs : List Char} (hcs : '\n' ∈ cs)
    (hcur : cur.rest = '#' :: (cs ++ after)) (hcur' : cur'.rest = '#' :: (cs ++ after')) :
    CarriesAt after after' (InvImage Eq (Step.unplaced lit)) (hash inner d) (hash inner d') cur
      cur' := by
  have hne : cur.rest ≠ after := by
    intro hrest
    have hlength := congrArg List.length (hrest.symm.trans hcur)
    rw [List.length_cons, List.length_append] at hlength
    omega
  have hgoOn : ∀ d d' : Draft, d.unplaced lit = d'.unplaced lit →
      Carries after after' (InvImage Eq (Step.unplaced lit)) (return .goOn d) (return .goOn d') :=
    fun _ _ hd => .pure (congrArg Step.goOn hd)
  intro s cur₂ hr hleft
  have hmarked : hash inner d' cur' = marked inner d' (mark cs) cur' := by
    rw [hash_eq, hcur', List.tail_cons, mark_append hcs]
  rw [hash_eq, hcur, List.tail_cons, mark_append hcs] at hr
  generalize hmark : mark cs = m at hmarked hr
  cases m with
  | lineComment =>
    rw [hmarked]
    exact (lineComment_carries hafter hd hlines hne).bind hgoOn (fun _ => .pure _) s cur₂ hr hleft
  | blockComment =>
    rw [hmarked]
    exact (blockComment_carries hafter hd hlines).bind hgoOn (fun _ => .pure _) s cur₂ hr hleft
  | verbatim =>
    rw [hmarked]
    exact (verbatim_carries hafter hd hlines).bind hgoOn (fun _ => .pure _) s cur₂ hr hleft
  | directive word n =>
    rw [← mark_append hcs after] at hmark
    obtain ⟨p, d₁, cur₁, hdirective, hproceed⟩ :=
      (marked_directive_eq_ok_iff hcur (mark_eq_directive_iff.mp hmark)).mp hr
    have hcarries {d₁ d₁' : Draft} {p p' : Head word} (hd₁ : d₁.unplaced lit = d₁'.unplaced lit)
        (hp : Head.unplaced lit word p = Head.unplaced lit word p') :=
      proceed_congr Carries.congruence hblock cur.position cur'.position hd₁ word hp
    have hleft₁ := hleft.trans ((hcarries rfl rfl).shrinks _ _ _ hproceed)
    obtain ⟨p', d₁', cur₁', hdirective', hp, hd₁, hlines₁⟩ :=
      directiveAt_carries hafter h hd hlines hdirective hleft₁
    rw [hdirective'.hash_eq]
    exact (hcarries hd₁ hp).carries hlines₁ s cur₂ hproceed hleft
  | text =>
    rw [hmarked]
    exact (push_carries hafter hd '#').carries hlines s cur₂ hr hleft

omit hafter hblock in
theorem reference?_carries (hlines : cur.InLines after after' cur') {cs : List Char}
    (hcs : '\n' ∈ cs) (hcur : cur.rest = '$' :: (cs ++ after))
    (hcur' : cur'.rest = '$' :: (cs ++ after')) :
    CarriesAt after after' (InvImage Eq (Option.map (Reference.unplaced lit))) (reference? inner)
      (reference? inner) cur cur' := by
  have hsigil : sigil? (cs ++ after') = sigil? (cs ++ after) :=
    sigil?_append (.inr ⟨cs, ⟨'\n', hcs, rfl⟩, rfl⟩)
  intro r? cur₁ hr hleft
  obtain ⟨_, _, ⟨⟩, hr⟩ := bind_eq_ok_iff.mp hr
  rw [hcur, List.tail_cons] at hr
  cases hs : sigil? (cs ++ after) with
  | none =>
    rw [hs] at hr
    cases hr
    refine ⟨none, cur', bind_eq_ok_iff.mpr ⟨cur'.rest, cur', rfl, ?_⟩, rfl, hlines⟩
    rw [hcur', List.tail_cons, hsigil, hs]
    rfl
  | some s =>
    rw [hs] at hr
    obtain ⟨c, rest, hdrop, hc⟩ := exists_drop_sigil hs
    have hsolid (r : Reference) (cur₁ : Cursor) (hr : referenceAfter inner s cur = .ok (r, cur₁)) :
        cur.EndsSolid cur₁ :=
      referenceAfter_solid h.shrinks (by rw [hcur, hdrop]) hc hr
    have hcarries := CarriesAt.of_solid (referenceAfter_tracks h s) hlines hsolid
    have hsome : CarriesAt after after' (InvImage Eq (Option.map (Reference.unplaced lit)))
        (return some (← referenceAfter inner s)) (return some (← referenceAfter inner s)) cur
        cur' :=
      hcarries.bind (fun _ _ hr => .pure (congrArg some hr)) fun _ => .pure _
    obtain ⟨r?', cur₁', hr', hR, hlines₁⟩ := hsome r? cur₁ hr hleft
    refine ⟨r?', cur₁', bind_eq_ok_iff.mpr ⟨cur'.rest, cur', rfl, ?_⟩, hR, hlines₁⟩
    rw [hcur', List.tail_cons, hsigil, hs]
    exact hr'

omit hblock in
/-- A reference in a line, or a `$` that begins none. -/
theorem dollar_carries {d d' : Draft} (hd : d.unplaced lit = d'.unplaced lit)
    (hlines : cur.InLines after after' cur') {cs : List Char} (hcs : '\n' ∈ cs)
    (hcur : cur.rest = '$' :: (cs ++ after)) (hcur' : cur'.rest = '$' :: (cs ++ after')) :
    CarriesAt after after' (InvImage Eq (Step.unplaced lit)) (part inner d (some '$'))
      (part inner d' (some '$')) cur cur' := by
  refine CarriesAt.bind (reference?_carries h hlines hcs hcur hcur') (fun r? r?' hr => ?_)
    fun r? => ?_
  · cases r? with
    | none =>
      cases r?' with
      | none => exact push_carries hafter hd '$'
      | some r' => cases hr
    | some r =>
      cases r?' with
      | none => cases hr
      | some r' =>
        refine .pure ?_
        simp only [InvImage, Step.unplaced, Draft.add_unplaced, hd, Node.unplaced,
          Option.some.inj hr]
  · cases r? with
    | none => exact (Shrinks.skip 1).bind fun _ => .pure _
    | some r => exact .pure _

/-- A part of a block in a line is read alike. -/
theorem part_carries {d d' : Draft} (hd : d.unplaced lit = d'.unplaced lit)
    (hlines : cur.InLines after after' cur') {c : Char} {cs : List Char}
    (hcs : WholeLines (c :: cs)) (hcur : cur.rest = c :: (cs ++ after))
    (hcur' : cur'.rest = c :: (cs ++ after')) :
    CarriesAt after after' (InvImage Eq (Step.unplaced lit)) (part inner d (some c))
      (part inner d' (some c)) cur cur' := by
  have hmem (hc : '\n' ≠ c) : '\n' ∈ cs :=
    (List.mem_cons.mp (hcs.mem (List.cons_ne_nil c cs))).resolve_left hc
  unfold part
  split
  · contradiction
  · next heq =>
    cases heq
    have hsolid (d₁ : Draft) (cur₁ : Cursor) (hr : escape d cur = .ok (d₁, cur₁)) :=
      escape_solid hcur hr
    exact (CarriesAt.of_solid (escape_tracks hd) hlines hsolid).bind
      (fun _ _ hd => .pure (congrArg Step.goOn hd)) fun _ => .pure _
  · next heq =>
    cases heq
    exact dollar_carries hafter h hd hlines (hmem (by decide)) hcur hcur'
  · next heq =>
    cases heq
    exact hash_carries hafter h hblock hd hlines (hmem (by decide)) hcur hcur'
  · next heq =>
    cases heq
    exact (push_carries hafter hd c).carries hlines

theorem step_carries {d d' : Draft} (hd : d.unplaced lit = d'.unplaced lit) :
    Carries after after' (InvImage Eq (Step.unplaced lit)) (step inner d) (step inner d') where
  shrinks := step_shrinks h.shrinks d
  carries {cur cur'} hlines s cur₁ hr hleft := by
    obtain ⟨cs, hcs, hrest, hrest'⟩ := hlines.lines
    cases cs with
    | nil =>
      -- A part takes a character, and none of the lines is left.
      have htakes := step_takes h.shrinks d cur s cur₁ hr trivial
      have hpos := List.length_pos_iff.mpr hafter
      have hlength := hleft.length_le
      rw [hrest, List.nil_append] at htakes
      omega
    | cons c cs =>
      rw [step_eq, hrest] at hr
      rw [step_eq, hrest']
      exact part_carries hafter h hblock hd hlines hcs hrest hrest' s cur₁ hr hleft

theorem block_carries :
    Carries after after' (InvImage Eq (Block.unplaced lit)) (block inner) (block inner) :=
  blockFrom_congr Carries.congruence (step_carries hafter h hblock) _ rfl

end

end

end Grammar

/-- **Lines are read alike before any other text.** -/
theorem Inner.upTo_carries (lit : String → String) {after : List Char} (hafter : after ≠ [])
    (after' : List Char) : (limit : Nat) → (Inner.upTo limit).Carries lit after after'
  | 0 => .pure rfl
  | limit + 1 =>
    Grammar.block_carries hafter (upTo_tracks lit limit) (upTo_carries lit hafter after' limit)

end GatewayMapping.Template
