import GatewayMapping.Proofs.Reading.Leftover
import GatewayMapping.Proofs.Syntax.Unplaced

/-!
# Reading in another context

A text may stand at another place of a source, and another text may follow it there. A reader
*tracks* another one if it does the same in that context: its results are related, and so is what
it leaves (`Read.Tracks`).

The text that follows a name, a number or an operator may change what is read: the token goes on in
it. A text is *guarded* against what follows if nothing follows, or if it holds a closing
parenthesis, a closing brace or a line feed. No token has one of them except as its last character,
so the readers of tokens look no further.

Where nothing follows in either context, the readers stop with the same faults too, places apart.

## Main definitions

* `Guarded`: what follows a text does not change what it says.
* `Cursor.Extends`: a cursor in another context.
* `Read.Tracks`: a reader does the same in another context.
-/

namespace GatewayMapping.Template

variable {α β : Type}

/-! ### Guarded texts -/

/-- Whether a character closes a parenthesis or a brace or ends a line. -/
def isGuard (c : Char) : Bool := c = ')' || c = '\x7d' || c = '\n'

theorem not_guard_of_any {cs : List Char} (h : cs.any isGuard = false) :
    ∀ c ∈ cs, isGuard c = false := fun c hc =>
  Bool.eq_false_iff.mpr (List.any_eq_false.mp h c hc)

/-- What is left of a text with `after` behind it is guarded against `after'` in its place: nothing
stands behind it in either case, or what is left of the text itself holds a guard. -/
def Guarded (after after' rest : List Char) : Prop :=
  (after = [] ∧ after' = []) ∨ ∃ cs, (∃ c ∈ cs, isGuard c) ∧ rest = cs ++ after

namespace Guarded

variable {after after' rest rest' cs : List Char} {c : Char}

theorem of_suffix (h : Guarded after after' rest) (hrest : rest <:+ rest') :
    Guarded after after' rest' := by
  obtain hnil | ⟨cs, ⟨c, hc, hguard⟩, rfl⟩ := h
  · exact .inl hnil
  · obtain ⟨before, rfl⟩ := hrest
    exact .inr ⟨before ++ cs, ⟨c, List.mem_append_right before hc, hguard⟩,
      (List.append_assoc ..).symm⟩

theorem cases (h : Guarded after after' (cs ++ after)) :
    (after = [] ∧ after' = []) ∨ ∃ c ∈ cs, isGuard c := by
  obtain hnil | ⟨cs', hguard, heq⟩ := h
  · exact .inl hnil
  · exact .inr (List.append_cancel_right heq ▸ hguard)

theorem eq_nil (h : Guarded after after' after) : after = [] ∧ after' = [] :=
  have hnil : Guarded after after' ([] ++ after) := h
  hnil.cases.resolve_right fun ⟨_, hc, _⟩ => absurd hc List.not_mem_nil

/-- What is left behind some characters is longer than what follows by a guard at least. -/
theorem length_lt (h : Guarded after after' rest) :
    (after = [] ∧ after' = []) ∨ after.length < rest.length := by
  obtain hnil | ⟨cs, ⟨c, hc, -⟩, rfl⟩ := h
  · exact .inl hnil
  · have hpos := List.length_pos_of_mem hc
    rw [List.length_append]
    exact .inr (by omega)

/-- A character that is no guard has the guard after it. -/
theorem tail (h : Guarded after after' (c :: cs ++ after)) (hc : isGuard c = false) :
    Guarded after after' (cs ++ after) := by
  obtain hnil | ⟨g, hg, hguard⟩ := h.cases
  · exact .inl hnil
  · obtain rfl | hg := List.mem_cons.mp hg
    · rw [hc] at hguard
      cases hguard
    · exact .inr ⟨cs, ⟨g, hg, hguard⟩, rfl⟩

theorem eq_nil_of_cons (h : Guarded after after' (c :: after)) (hc : isGuard c = false) :
    after = [] ∧ after' = [] :=
  have hcons : Guarded after after' (c :: [] ++ after) := h
  (hcons.tail hc).eq_nil

theorem head? (h : Guarded after after' (cs ++ after)) :
    (cs ++ after').head? = (cs ++ after).head? := by
  cases cs with
  | nil => rw [h.eq_nil.1, h.eq_nil.2]
  | cons c cs => rfl

/-- A token is found in a text by looking at no more than its beginning. -/
theorem isPrefixOf (h : Guarded after after' (cs ++ after)) {token : List Char}
    (ht : ∀ c ∈ token, isGuard c = false) :
    token.isPrefixOf (cs ++ after') = token.isPrefixOf (cs ++ after) := by
  induction token generalizing cs with
  | nil => rw [List.isPrefixOf, List.isPrefixOf]
  | cons t token ih =>
    cases cs with
    | nil => rw [h.eq_nil.1, h.eq_nil.2]
    | cons c cs =>
      rw [List.cons_append, List.cons_append, List.isPrefixOf, List.isPrefixOf]
      by_cases htc : t = c
      · subst htc
        have ⟨hthis, hothers⟩ := List.forall_mem_cons.mp ht
        rw [ih (h.tail hthis) hothers]
      · rw [beq_false_of_ne htc, Bool.false_and, Bool.false_and]

/-- The character behind a token is the same. -/
theorem head?_drop (h : Guarded after after' (cs ++ after)) {token : List Char}
    (ht : ∀ c ∈ token, isGuard c = false) (hpre : token.isPrefixOf (cs ++ after) = true) :
    ((cs ++ after').drop token.length).head? = ((cs ++ after).drop token.length).head? := by
  induction token generalizing cs with
  | nil => exact h.head?
  | cons t token ih =>
    cases cs with
    | nil => rw [h.eq_nil.1, h.eq_nil.2]
    | cons c cs =>
      rw [List.cons_append, List.isPrefixOf, Bool.and_eq_true, beq_iff_eq] at hpre
      obtain ⟨rfl, hpre⟩ := hpre
      have ⟨hthis, hothers⟩ := List.forall_mem_cons.mp ht
      exact ih (h.tail hthis) hothers hpre

/-- A run of characters that ends before the guard ends there in the other text as well. -/
theorem takeWhile {p : Char → Bool} (h : Guarded after after' ((cs ++ after).dropWhile p)) :
    (cs ++ after').takeWhile p = (cs ++ after).takeWhile p := by
  induction cs with
  | nil =>
    have hlength := (List.dropWhile_suffix p (l := [] ++ after)).length_le
    obtain ⟨rfl, rfl⟩ := h.length_lt.resolve_right (Nat.not_lt.mpr hlength)
    rfl
  | cons c cs ih =>
    rw [List.cons_append, List.cons_append]
    by_cases hc : p c
    · rw [List.cons_append, List.dropWhile_cons_of_pos hc] at h
      rw [List.takeWhile_cons_of_pos hc, List.takeWhile_cons_of_pos hc, ih h]
    · rw [List.takeWhile_cons_of_neg hc, List.takeWhile_cons_of_neg hc]

end Guarded

/-! ### Cursors in another context -/

/-- What is left is the same up to what follows. Only blocks take notice of the indentation; it is
the same where `indented` holds. -/
structure Cursor.Extends (after after' : List Char) (indented : Prop) (cur cur' : Cursor) :
    Prop where
  rests : ∃ cs, cur.rest = cs ++ after ∧ cur'.rest = cs ++ after'
  indent : indented → cur'.indent = cur.indent

namespace Cursor.Extends

variable {after after' : List Char} {indented : Prop} {cur cur' : Cursor}

/-- The second cursor has a further text after what the first one has left. -/
theorem of_append {extra : List Char} (h : cur'.rest = cur.rest ++ extra)
    (hindent : indented → cur'.indent = cur.indent) : Extends [] extra indented cur cur' :=
  ⟨⟨cur.rest, (List.append_nil _).symm, h⟩, hindent⟩

theorem rest_append {extra : List Char} (h : Extends [] extra indented cur cur') :
    cur'.rest = cur.rest ++ extra := by
  obtain ⟨cs, hrest, hrest'⟩ := h.rests
  rw [hrest', hrest, List.append_nil]

theorem rest_eq (h : Extends [] [] indented cur cur') : cur'.rest = cur.rest := by
  rw [h.rest_append, List.append_nil]

theorem next (h : Extends after after' indented cur cur')
    (hlong : (after = [] ∧ after' = []) ∨ after.length < cur.rest.length) :
    Extends after after' indented cur.next cur'.next := by
  obtain ⟨rest, position, indent⟩ := cur
  obtain ⟨rest', position', indent'⟩ := cur'
  obtain ⟨⟨cs, hrest, hrest'⟩, hindent⟩ := h
  obtain rfl : rest = cs ++ after := hrest
  obtain rfl : rest' = cs ++ after' := hrest'
  cases cs with
  | nil =>
    obtain ⟨rfl, rfl⟩ := hlong.resolve_right (Nat.lt_irrefl _)
    exact ⟨⟨[], rfl, rfl⟩, hindent⟩
  | cons c cs => exact ⟨⟨cs, rfl, rfl⟩, fun hi => congrArg (indentAfter · c) (hindent hi)⟩

theorem skip (h : Extends after after' indented cur cur') (n : Nat)
    (hn : (after = [] ∧ after' = []) ∨ n + after.length ≤ cur.rest.length) :
    Extends after after' indented (cur.skip n) (cur'.skip n) := by
  induction n generalizing cur cur' with
  | zero => exact h
  | succ n ih =>
    refine ih (h.next (hn.imp_right fun hn => by omega)) (hn.imp_right fun hn => ?_)
    rw [rest_next, List.length_tail]
    omega

/-- A guarded rest is reached in both contexts by passing over the same characters. -/
theorem skip_of_guarded (h : Extends after after' indented cur cur') {n : Nat}
    (hg : Guarded after after' (cur.skip n).rest) :
    Extends after after' indented (cur.skip n) (cur'.skip n) := by
  refine h.skip n (hg.length_lt.imp_right fun hlt => ?_)
  rw [rest_skip, List.length_drop] at hlt
  omega

theorem upTo {start start' : Cursor} (hs : Extends after after' indented start start')
    (h : Extends after after' indented cur cur') : start'.upTo cur' = start.upTo cur := by
  obtain ⟨cs, hrest, hrest'⟩ := hs.rests
  obtain ⟨ds, hleft, hleft'⟩ := h.rests
  have htake (after : List Char) : (cs ++ after).take
      ((cs ++ after).length - (ds ++ after).length) = cs.take (cs.length - ds.length) := by
    rw [List.length_append, List.length_append, Nat.add_sub_add_right,
      List.take_append_of_le_length (Nat.sub_le _ _)]
  rw [Cursor.upTo, Cursor.upTo, hrest, hrest', hleft, hleft', htake, htake]

end Cursor.Extends

namespace Read

variable {lit : String → String} {after after' : List Char} {indented : Prop}
  {R : α → α → Prop} {S : β → β → Prop}

/-- A reader, and one that does the same in another context. Results are related by `R`. -/
structure Tracks (lit : String → String) (after after' : List Char) (indented : Prop)
    (R : α → α → Prop) (r r' : Read α) : Prop where
  shrinks : Shrinks r
  follows : ∀ {cur cur' : Cursor}, cur.Extends after after' indented cur' →
    ∀ {a : α} {cur₁ : Cursor}, r cur = .ok (a, cur₁) → Guarded after after' cur₁.rest →
      ∃ a' cur₁', r' cur' = .ok (a', cur₁') ∧ R a a' ∧ cur₁.Extends after after' indented cur₁'
  fails : after = [] ∧ after' = [] → ∀ {cur cur' : Cursor},
    cur.Extends after after' indented cur' → ∀ {e : SyntaxError}, r cur = .error e →
      ∃ e', r' cur' = .error e' ∧ e.fault.unplaced lit = e'.fault.unplaced lit

/-- A sequence fails where its first part does or its second part does after it. -/
theorem bind_eq_error_iff {x : Read α} {f : α → Read β} {cur : Cursor} {e : SyntaxError} :
    (x >>= f) cur = .error e ↔
      x cur = .error e ∨ ∃ a cur', x cur = .ok (a, cur') ∧ f a cur' = .error e := by
  change (x cur >>= fun p => f p.1 p.2) = _ ↔ _
  cases hx : x cur with
  | error e' =>
    constructor
    · rintro ⟨⟩
      exact .inl rfl
    · rintro (⟨⟨⟩⟩ | ⟨_, _, h, -⟩)
      · rfl
      · cases h
  | ok p =>
    obtain ⟨a, cur'⟩ := p
    constructor
    · exact fun hf => .inr ⟨a, cur', rfl, hf⟩
    · rintro (h | ⟨_, _, heq, hf⟩)
      · cases h
      · cases heq
        exact hf

namespace Tracks

theorem pure {a a' : α} (ha : R a a') :
    Tracks lit after after' indented R (pure a) (pure a') where
  shrinks := .pure a
  follows hext _ _ h _ := by
    cases h
    exact ⟨a', _, rfl, ha, hext⟩
  fails _ _ _ _ _ h := nomatch h

theorem bind {x x' : Read α} {f f' : α → Read β} (hx : Tracks lit after after' indented R x x')
    (hf : ∀ a a', R a a' → Tracks lit after after' indented S (f a) (f' a'))
    (hs : ∀ a, Shrinks (f a)) : Tracks lit after after' indented S (x >>= f) (x' >>= f') where
  shrinks := hx.shrinks.bind hs
  follows hext b cur₂ h hg := by
    obtain ⟨a, cur₁, hxa, hfb⟩ := bind_eq_ok_iff.mp h
    have hg₁ := hg.of_suffix (hs a _ _ _ hfb)
    obtain ⟨a', cur₁', hxa', hR, hext₁⟩ := hx.follows hext hxa hg₁
    obtain ⟨b', cur₂', hfb', hS, hext₂⟩ := (hf a a' hR).follows hext₁ hfb hg
    exact ⟨b', cur₂', bind_eq_ok_iff.mpr ⟨a', cur₁', hxa', hfb'⟩, hS, hext₂⟩
  fails hnil cur cur' hext e h := by
    obtain hxe | ⟨a, cur₁, hxa, hfe⟩ := bind_eq_error_iff.mp h
    · obtain ⟨e', hxe', he⟩ := hx.fails hnil hext hxe
      exact ⟨e', bind_eq_error_iff.mpr (.inl hxe'), he⟩
    · obtain ⟨a', cur₁', hxa', hR, hext₁⟩ := hx.follows hext hxa (.inl hnil)
      obtain ⟨e', hfe', he⟩ := (hf a a' hR).fails hnil hext₁ hfe
      exact ⟨e', bind_eq_error_iff.mpr (.inr ⟨a', cur₁', hxa', hfe'⟩), he⟩

theorem mono {R' : α → α → Prop} {r r' : Read α} (h : Tracks lit after after' indented R r r')
    (hR : ∀ a a', R a a' → R' a a') : Tracks lit after after' indented R' r r' where
  shrinks := h.shrinks
  follows hext _ _ hr hg := by
    obtain ⟨a', cur₁', hr', ha, hext₁⟩ := h.follows hext hr hg
    exact ⟨a', cur₁', hr', hR _ _ ha, hext₁⟩
  fails := h.fails

theorem of_eq {γ : Type} (g : α → γ) {r r' : Read α}
    (h : Tracks lit after after' indented Eq r r') :
    Tracks lit after after' indented (InvImage Eq g) r r' :=
  h.mono fun _ _ => congrArg g

/-- What follows a reader with equal results. -/
theorem bind_eq {x x' : Read α} {f f' : α → Read β} (hx : Tracks lit after after' indented Eq x x')
    (hf : ∀ a, Tracks lit after after' indented S (f a) (f' a)) :
    Tracks lit after after' indented S (x >>= f) (x' >>= f') :=
  hx.bind (fun a _ h => h ▸ hf a) fun a => (hf a).shrinks

/-- What follows a reader with results that are the same places apart. -/
theorem bind_on {γ : Type} {g : α → γ} {x x' : Read α} {f f' : α → Read β}
    (hx : Tracks lit after after' indented (InvImage Eq g) x x')
    (hf : ∀ a a', g a = g a' → Tracks lit after after' indented S (f a) (f' a')) :
    Tracks lit after after' indented S (x >>= f) (x' >>= f') :=
  hx.bind hf fun a => (hf a a rfl).shrinks

theorem failAt {position position' : Position} {fault fault' : SyntaxFault}
    (h : fault.unplaced lit = fault'.unplaced lit) :
    Tracks lit after after' indented R (failAt position fault) (failAt position' fault') where
  shrinks := .failAt position fault
  follows _ _ _ hr := nomatch hr
  fails _ _ _ _ _ hr := by
    cases hr
    exact ⟨_, rfl, h⟩

theorem fail (fault : SyntaxFault) :
    Tracks lit after after' indented R (fail fault) (fail fault) where
  shrinks := .fail fault
  follows _ _ _ hr := nomatch hr
  fails _ _ _ _ _ hr := by
    cases hr
    exact ⟨_, rfl, rfl⟩

theorem unexpected {expected expected' : Expected} (h : expected.unplaced = expected'.unplaced) :
    Tracks lit after after' indented R (unexpected expected) (unexpected expected') where
  shrinks := .unexpected expected
  follows _ _ _ hr := nomatch hr
  fails hnil cur cur' hext e hr := by
    obtain ⟨rfl, rfl⟩ := hnil
    cases hr
    refine ⟨_, rfl, ?_⟩
    rw [hext.rest_eq, SyntaxFault.unplaced, SyntaxFault.unplaced, h]

theorem ite {c : Prop} [Decidable c] {x x' y y' : Read α}
    (hx : Tracks lit after after' indented R x x')
    (hy : Tracks lit after after' indented R y y') :
    Tracks lit after after' indented R (if c then x else y) (if c then x' else y') := by
  split
  · exact hx
  · exact hy

theorem get : Tracks lit after after' indented (Cursor.Extends after after' indented) get get where
  shrinks := .get
  follows hext _ _ h _ := by
    cases h
    exact ⟨_, _, rfl, hext, hext⟩
  fails _ _ _ _ _ h := nomatch h

/-- A place that is taken note of is another one in another context. -/
theorem here_bind {f f' : Position → Read β}
    (hf : ∀ p p', Tracks lit after after' indented S (f p) (f' p')) :
    Tracks lit after after' indented S (here >>= f) (here >>= f') := by
  have hhere : Tracks lit after after' indented (fun _ _ => True) here here :=
    { shrinks := .here
      follows := fun hext _ _ h _ => by
        cases h
        exact ⟨_, _, rfl, trivial, hext⟩
      fails := fun _ _ _ _ _ h => nomatch h }
  exact hhere.bind (fun p p' _ => hf p p') fun p => (hf p p).shrinks

/-- With nothing added, a cursor that is taken note of has the same rest and indentation. -/
theorem get_bind {f f' : Cursor → Read β}
    (hf : ∀ cur cur', cur.Extends [] [] True cur' → Tracks lit [] [] True S (f cur) (f' cur')) :
    Tracks lit [] [] True S (MonadState.get >>= f) (MonadState.get >>= f') :=
  get.bind hf fun cur => (hf cur cur (.of_append (List.append_nil _).symm fun _ => rfl)).shrinks

/-- A result that is not read from the text. -/
theorem lift {x x' : Except SyntaxError α} (h : ∀ a, x = .ok a → ∃ a', x' = .ok a' ∧ R a a')
    (herror : ∀ e, x = .error e →
      ∃ e', x' = .error e' ∧ e.fault.unplaced lit = e'.fault.unplaced lit) :
    Tracks lit after after' indented R (liftM x) (liftM x') where
  shrinks := .lift x
  follows hext a _ hr _ := by
    cases x with
    | error e => cases hr
    | ok a =>
      obtain ⟨a', rfl, hR⟩ := h a rfl
      cases hr
      exact ⟨a', _, rfl, hR, hext⟩
  fails _ _ _ _ e hr := by
    cases x with
    | error e =>
      obtain ⟨e', rfl, he⟩ := herror e rfl
      cases hr
      exact ⟨e', rfl, he⟩
    | ok a => cases hr

theorem peek? : Tracks lit after after' indented Eq peek? peek? where
  shrinks := .peek?
  follows {cur cur'} hext _ _ h hg := by
    cases h
    obtain ⟨cs, hrest, hrest'⟩ := hext.rests
    rw [hrest] at hg
    exact ⟨_, _, rfl, by rw [hrest, hrest', hg.head?], hext⟩
  fails _ _ _ _ _ h := nomatch h

theorem skip (n : Nat) : Tracks lit after after' indented Eq (skip n) (skip n) where
  shrinks := .skip n
  follows hext _ _ h hg := by
    cases h
    exact ⟨_, _, rfl, rfl, hext.skip_of_guarded hg⟩
  fails _ _ _ _ _ h := nomatch h

theorem takeWhile (p : Char → Bool) :
    Tracks lit after after' indented Eq (takeWhile p) (takeWhile p) where
  shrinks := .takeWhile p
  follows {cur cur'} hext _ _ h hg := by
    cases h
    obtain ⟨cs, hrest, hrest'⟩ := hext.rests
    have hg' : Guarded after after' ((cs ++ after).dropWhile p) := by
      rwa [Cursor.rest_skipWhile, hrest] at hg
    have htake : cur'.rest.takeWhile p = cur.rest.takeWhile p := by
      rw [hrest, hrest', hg'.takeWhile]
    refine ⟨_, _, rfl, htake.symm, ?_⟩
    rw [Cursor.skipWhile, Cursor.skipWhile, htake]
    exact hext.skip_of_guarded hg
  fails _ _ _ _ _ h := nomatch h

theorem skipWhile (p : Char → Bool) :
    Tracks lit after after' indented Eq (skipWhile p) (skipWhile p) :=
  (takeWhile p).bind_eq fun _ => .pure rfl

/-- What is read depends on a look at the characters that are left, which sees as much in the
other context. -/
theorem lookahead {f f' : List Char → Read α}
    (hstable : ∀ cs, Guarded after after' (cs ++ after) → f' (cs ++ after') = f' (cs ++ after))
    (hf : ∀ cs, Tracks lit after after' indented R (f cs) (f' cs)) :
    Tracks lit after after' indented R (rest >>= f) (rest >>= f') where
  shrinks := .bind .rest fun cs => (hf cs).shrinks
  follows {cur cur'} hext b cur₁ h hg := by
    obtain ⟨_, _, ⟨⟩, h⟩ := bind_eq_ok_iff.mp h
    obtain ⟨b', cur₁', hb', hR, hext₁⟩ := (hf cur.rest).follows hext h hg
    refine ⟨b', cur₁', bind_eq_ok_iff.mpr ⟨cur'.rest, cur', rfl, ?_⟩, hR, hext₁⟩
    obtain ⟨cs, hrest, hrest'⟩ := hext.rests
    have hg' := hg.of_suffix ((hf cur.rest).shrinks _ _ _ h)
    rw [hrest] at hg' hb'
    rw [hrest', hstable cs hg']
    exact hb'
  fails hnil cur cur' hext e h := by
    obtain ⟨rfl, rfl⟩ := hnil
    obtain h | ⟨_, _, ⟨⟩, h⟩ := bind_eq_error_iff.mp h
    · cases h
    obtain ⟨e', he', heq⟩ := (hf cur.rest).fails ⟨rfl, rfl⟩ hext h
    refine ⟨e', bind_eq_error_iff.mpr (.inr ⟨cur'.rest, cur', rfl, ?_⟩), heq⟩
    rw [hext.rest_eq]
    exact he'

/-- With nothing added, both readers look at the same characters. -/
theorem rest_bind {f f' : List Char → Read β}
    (hf : ∀ cs, Tracks lit [] [] True S (f cs) (f' cs)) :
    Tracks lit [] [] True S (rest >>= f) (rest >>= f') :=
  .lookahead (fun _ _ => rfl) hf

/-! ### Tokens -/

theorem char (c : Char) (expected : Expected) :
    Tracks lit after after' indented Eq (char c expected) (char c expected) :=
  peek?.bind_eq fun _ => .ite (skip 1) (.unexpected rfl)

theorem sign {token : List Char} (ht : ∀ c ∈ token, isGuard c = false) :
    Tracks lit after after' indented Eq (sign token) (sign token) := by
  refine .lookahead (fun cs hg => ?_) fun cs =>
    .ite ((skip token.length).bind_eq fun _ => .pure rfl) (.pure rfl)
  rw [hg.isPrefixOf ht]

theorem wholeWord {word : List Char} (hw : ∀ c ∈ word, isGuard c = false) :
    Tracks lit after after' indented Eq (wholeWord word) (wholeWord word) := by
  refine .lookahead (fun cs hg => ?_) fun cs =>
    .ite ((skip word.length).bind_eq fun _ => .pure rfl) (.pure rfl)
  have hbegins : beginsWithWord word (cs ++ after') = beginsWithWord word (cs ++ after) := by
    rw [beginsWithWord, beginsWithWord, hg.isPrefixOf hw]
    cases hpre : word.isPrefixOf (cs ++ after) with
    | false => rfl
    | true => rw [hg.head?_drop hw hpre]
  rw [hbegins]

theorem name : Tracks lit after after' indented Eq name name :=
  (takeWhile isNameChar).bind_eq fun _ => .pure rfl

/-- Quotes that are closed before the end of a text are closed at the same place in a longer
one. -/
theorem quotedContent?_append {quote : Char} {cs content : List Char} {k : Nat}
    (h : quotedContent? quote cs = some (content, k)) (hk : k < cs.length) (extra : List Char) :
    quotedContent? quote (cs ++ extra) = some (content, k) := by
  induction cs using quotedContent?.induct quote generalizing content k with
  | case1 => cases h
  | case2 =>
    rw [quotedContent?, if_pos rfl] at h
    cases h
    exact absurd hk (Nat.lt_irrefl 1)
  | case3 c hc =>
    rw [quotedContent?, if_neg hc] at h
    cases h
  | case4 cs ih =>
    rw [quotedContent?, if_pos rfl, if_pos rfl, Option.map_eq_some_iff] at h
    obtain ⟨⟨rest, j⟩, hrest, heq⟩ := h
    obtain ⟨rfl, rfl⟩ := Prod.mk.inj heq
    have hcs := ih hrest (Nat.lt_of_succ_lt_succ (Nat.lt_of_succ_lt_succ hk))
    rw [List.cons_append, List.cons_append, quotedContent?, if_pos rfl, if_pos rfl, hcs]
    rfl
  | case5 d cs hd =>
    rw [quotedContent?, if_pos rfl, if_neg hd] at h
    rw [List.cons_append, List.cons_append, quotedContent?, if_pos rfl, if_neg hd]
    exact h
  | case6 c d cs hc ih =>
    rw [quotedContent?, if_neg hc, Option.map_eq_some_iff] at h
    obtain ⟨⟨rest, j⟩, hrest, heq⟩ := h
    obtain ⟨rfl, rfl⟩ := Prod.mk.inj heq
    have hcs := ih hrest (Nat.lt_of_succ_lt_succ hk)
    rw [List.cons_append] at hcs
    rw [List.cons_append, List.cons_append, quotedContent?, if_neg hc, hcs]
    rfl

/-- Quotes that are closed before the end of a part of a text are closed there in the part
alone. -/
theorem quotedContent?_of_append {quote : Char} {cs content extra : List Char} {k : Nat}
    (h : quotedContent? quote (cs ++ extra) = some (content, k)) (hk : k < cs.length) :
    quotedContent? quote cs = some (content, k) := by
  induction cs using quotedContent?.induct quote generalizing content k with
  | case1 => exact absurd hk (Nat.not_lt_zero k)
  | case2 =>
    obtain rfl : k = 0 := Nat.lt_one_iff.mp hk
    cases extra with
    | nil => exact h
    | cons d extra =>
      rw [List.cons_append, List.nil_append, quotedContent?, if_pos rfl] at h
      split at h
      · obtain ⟨_, -, heq⟩ := Option.map_eq_some_iff.mp h
        cases heq
      · cases h
  | case3 c hc =>
    obtain rfl : k = 0 := Nat.lt_one_iff.mp hk
    cases extra with
    | nil => exact h
    | cons d extra =>
      rw [List.cons_append, List.nil_append, quotedContent?, if_neg hc] at h
      obtain ⟨_, -, heq⟩ := Option.map_eq_some_iff.mp h
      cases heq
  | case4 cs ih =>
    rw [List.cons_append, List.cons_append, quotedContent?, if_pos rfl, if_pos rfl,
      Option.map_eq_some_iff] at h
    obtain ⟨⟨rest, j⟩, hrest, heq⟩ := h
    obtain ⟨rfl, rfl⟩ := Prod.mk.inj heq
    have hcs := ih hrest (Nat.lt_of_succ_lt_succ (Nat.lt_of_succ_lt_succ hk))
    rw [quotedContent?, if_pos rfl, if_pos rfl, hcs]
    rfl
  | case5 d cs hd =>
    rw [List.cons_append, List.cons_append, quotedContent?, if_pos rfl, if_neg hd] at h
    rw [quotedContent?, if_pos rfl, if_neg hd]
    exact h
  | case6 c d cs hc ih =>
    rw [List.cons_append, List.cons_append, quotedContent?, if_neg hc, ← List.cons_append,
      Option.map_eq_some_iff] at h
    obtain ⟨⟨rest, j⟩, hrest, heq⟩ := h
    obtain ⟨rfl, rfl⟩ := Prod.mk.inj heq
    rw [quotedContent?, if_neg hc, ih hrest (Nat.lt_of_succ_lt_succ hk)]
    rfl

/-- The content of the quotes at a cursor is the same in the other context. -/
theorem quotedContent?_tail {quote : Char} {cur cur' : Cursor} {content : List Char} {k : Nat}
    (hext : cur.Extends after after' indented cur')
    (hg : Guarded after after' (cur.skip (k + 1)).rest)
    (h : quotedContent? quote cur.rest.tail = some (content, k)) :
    quotedContent? quote cur'.rest.tail = some (content, k) := by
  obtain ⟨cs, hrest, hrest'⟩ := hext.rests
  obtain ⟨rfl, rfl⟩ | hlt := hg.length_lt
  · rwa [hrest', ← hrest]
  · rw [Cursor.rest_skip, hrest, List.length_drop, List.length_append] at hlt
    cases cs with
    | nil => exact absurd hlt (by rw [List.length_nil]; omega)
    | cons c cs =>
      rw [List.length_cons] at hlt
      rw [hrest] at h
      rw [hrest']
      have hk : k < cs.length := by omega
      exact quotedContent?_append (quotedContent?_of_append h hk) hk after'

theorem quoted (quote : Char) :
    Tracks lit after after' indented Eq (quoted quote) (quoted quote) where
  shrinks := .quoted quote
  follows {cur cur'} hext content cur₁ h hg := by
    obtain ⟨_, _, ⟨⟩, h⟩ := bind_eq_ok_iff.mp h
    cases hq : quotedContent? quote cur.rest.tail with
    | none =>
      rw [hq] at h
      cases h
    | some p =>
      obtain ⟨content, k⟩ := p
      rw [hq] at h
      cases h
      refine ⟨content, cur'.skip (k + 1), bind_eq_ok_iff.mpr ⟨cur'.rest, cur', rfl, ?_⟩, rfl,
        hext.skip_of_guarded hg⟩
      rw [quotedContent?_tail hext hg hq]
      rfl
  fails hnil cur cur' hext e h := by
    obtain ⟨rfl, rfl⟩ := hnil
    obtain h | ⟨_, _, ⟨⟩, h⟩ := bind_eq_error_iff.mp h
    · cases h
    cases hq : quotedContent? quote cur.rest.tail with
    | none =>
      rw [hq] at h
      cases h
      refine ⟨⟨.unclosedString, cur'.position⟩,
        bind_eq_error_iff.mpr (.inr ⟨cur'.rest, cur', rfl, ?_⟩), rfl⟩
      rw [hext.rest_eq, hq]
      rfl
    | some p =>
      rw [hq] at h
      cases h

variable {item item' : Read α} {γ : Type} {g : α → γ}

theorem itemsAfter (h : Tracks lit after after' indented (InvImage Eq g) item item') (close : Char)
    (expected : Expected) : (limit : Nat) →
      Tracks lit after after' indented (InvImage Eq (List.map g))
        (itemsAfter item close expected limit) (itemsAfter item' close expected limit)
  | 0 => .unexpected rfl
  | limit + 1 => by
      refine (skipWhile isExprBlank).bind_eq fun _ => peek?.bind_eq fun c? => ?_
      cases c? with
      | none => exact .unexpected rfl
      | some c =>
        refine .ite ((skip 1).bind_eq fun _ => h.bind_on fun x x' hx => ?_)
          (.ite ((skip 1).bind_eq fun _ => .pure rfl) (.unexpected rfl))
        refine (itemsAfter h close expected limit).bind_on fun xs xs' hxs => .pure ?_
        exact List.cons_eq_cons.mpr ⟨hx, hxs⟩

theorem items (h : Tracks lit after after' indented (InvImage Eq g) item item') (close : Char)
    (expected : Expected) (limit : Nat) :
    Tracks lit after after' indented (InvImage Eq (List.map g)) (items item close expected limit)
      (items item' close expected limit) := by
  refine (skipWhile isExprBlank).bind_eq fun _ => peek?.bind_eq fun _ =>
    .ite ((skip 1).bind_eq fun _ => .pure rfl) (h.bind_on fun x x' hx => ?_)
  refine (itemsAfter h close expected limit).bind_on fun xs xs' hxs => .pure ?_
  exact List.cons_eq_cons.mpr ⟨hx, hxs⟩

end Tracks

/-! ### Congruences -/

/-- A relation of readers that goes through sequences. Where it holds of the parts of a reader, it
holds of the whole. -/
structure Congruence (lit : String → String)
    (T : {α : Type} → (α → α → Prop) → Read α → Read α → Prop) : Prop where
  pure : ∀ {α : Type} {R : α → α → Prop} {a a' : α}, R a a' → T R (Pure.pure a) (Pure.pure a')
  failAt : ∀ {α : Type} {R : α → α → Prop} {position position' : Position}
    {fault fault' : SyntaxFault}, fault.unplaced lit = fault'.unplaced lit →
      T R (failAt position fault) (failAt position' fault')
  unexpected : ∀ {α : Type} {R : α → α → Prop} {expected expected' : Expected},
    expected.unplaced = expected'.unplaced → T R (unexpected expected) (unexpected expected')
  bind_on : ∀ {α β γ : Type} {g : α → γ} {S : β → β → Prop} {x x' : Read α} {f f' : α → Read β},
    T (InvImage Eq g) x x' → (∀ a a', g a = g a' → T S (f a) (f' a')) → T S (x >>= f) (x' >>= f')

theorem Tracks.congruence : Congruence lit (Tracks lit after after' indented) :=
  ⟨.pure, .failAt, .unexpected, .bind_on⟩

end Read

end GatewayMapping.Template
