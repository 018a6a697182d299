import GatewayMapping.Proofs.Reading.Continuations

/-!
# Constructs on lines of their own

A directive or a comment may stand alone on its line, with blanks before and after it. Then the
blanks and the end of the line go with it: the source is read as if the blanks were not there, and
what a block has before the line is what it goes on with after it (`parse_own_line`).

Up to the beginning of the line the two sources are the same, so the place is at block level in both
(`Grammar.BlockAt.carries`). The blanks before the construct have become text by the time it is
reached, and they are taken back (`Grammar.trimIndent_append`). A construct with arguments ends with
a closing parenthesis, so that it is read alike whatever stands behind it (`Read.Closes`). After the
line both sources are the same again.

## Main definitions

* `Read.Closes`: readers that end with a closing parenthesis.
* `Grammar.IsConstruct`: the text of a directive or of a comment.
* `Grammar.ConstructAt`: a directive or a comment up to the end of its line.
* `unplacedOutcome`: what parsing gives, without places.

## Main results

* `parse_own_line`: the line goes with its construct.
-/

namespace GatewayMapping.Template

variable {α β : Type}

/-! ### Readers that end with a closing parenthesis -/

/-- What `r` reads of a whole text up to a parenthesis that closes it, `r'` reads where `extra`
follows. -/
structure Read.Closes (lit : String → String) (extra : List Char) (R : α → α → Prop)
    (r r' : Read α) : Prop where
  guards : ∀ {cur : Cursor} {a : α} {cur₁ : Cursor}, r cur = .ok (a, cur₁) →
    Guarded [] extra cur.rest
  follows : ∀ {cur cur' : Cursor}, cur.Extends [] extra False cur' →
    ∀ {a : α} {cur₁ : Cursor}, r cur = .ok (a, cur₁) →
      ∃ a' cur₁', r' cur' = .ok (a', cur₁') ∧ R a a' ∧ cur₁.Extends [] extra False cur₁'

namespace Read.Closes

variable {lit : String → String} {extra : List Char} {R : α → α → Prop} {S : β → β → Prop}

theorem closeParen {a a' : α} (ha : R a a') :
    Closes lit extra R (do Grammar.closeParen; return a) (do Grammar.closeParen; return a') := by
  have hparen {cur : Cursor} {b : α} {cur₁ : Cursor}
      (hr : (do Grammar.closeParen; return a : Read α) cur = .ok (b, cur₁)) :
      a = b ∧ ∃ cur₂, skipBlanks cur = .ok ((), cur₂) ∧ cur₂.rest.head? = some ')' ∧
        cur₁ = cur₂.skip 1 ∧ Guarded [] extra cur₂.rest := by
    obtain ⟨_, cur₁, hclose, ⟨⟩⟩ := bind_eq_ok_iff.mp hr
    obtain ⟨_, cur₂, hskip, hchar⟩ := bind_eq_ok_iff.mp hclose
    obtain ⟨_, _, ⟨⟩, hchar⟩ := bind_eq_ok_iff.mp hchar
    split at hchar
    · next hhead =>
      cases hchar
      refine ⟨rfl, cur₂, hskip, hhead, rfl, .inr ⟨cur₂.rest, ⟨')', ?_, rfl⟩, ?_⟩⟩
      · exact List.mem_of_head? hhead
      · exact (List.append_nil _).symm
    · cases hchar
  refine ⟨fun hr => ?_, fun {cur cur'} hext {b cur₁} hr => ?_⟩
  · obtain ⟨-, cur₂, hskip, -, -, hguarded⟩ := hparen hr
    exact hguarded.of_suffix (Shrinks.skipWhile _ _ _ _ hskip)
  · obtain ⟨rfl, cur₂, hskip, hhead, rfl, hguarded⟩ := hparen hr
    have hblanks : Tracks lit [] extra False Eq skipBlanks skipBlanks := .skipWhile _
    obtain ⟨_, cur₂', hskip', -, hext₂⟩ := hblanks.follows hext hskip hguarded
    have hpos : 1 ≤ cur₂.rest.length := by
      cases hrest : cur₂.rest with
      | nil => rw [hrest] at hhead; cases hhead
      | cons c cs => rw [List.length_cons]; omega
    have hhead' : cur₂'.rest.head? = some ')' := by
      rw [hext₂.rest_append, List.head?_append, hhead]
      rfl
    refine ⟨a', cur₂'.skip 1, ?_, ha, hext₂.skip 1 (.inr hpos)⟩
    refine bind_eq_ok_iff.mpr ⟨(), _, bind_eq_ok_iff.mpr ⟨(), cur₂', hskip', ?_⟩, rfl⟩
    refine bind_eq_ok_iff.mpr ⟨_, cur₂', rfl, ?_⟩
    rw [hhead']
    rfl

theorem bind_on {γ : Type} {g : α → γ} {x x' : Read α} {f f' : α → Read β}
    (hx : Tracks lit [] extra False (InvImage Eq g) x x')
    (hf : ∀ a a', g a = g a' → Closes lit extra S (f a) (f' a')) :
    Closes lit extra S (x >>= f) (x' >>= f') where
  guards h := by
    obtain ⟨a, cur₁, hxa, hfb⟩ := bind_eq_ok_iff.mp h
    exact ((hf a a rfl).guards hfb).of_suffix (hx.shrinks _ _ _ hxa)
  follows hext b cur₂ h := by
    obtain ⟨a, cur₁, hxa, hfb⟩ := bind_eq_ok_iff.mp h
    obtain ⟨a', cur₁', hxa', ha, hext₁⟩ := hx.follows hext hxa ((hf a a rfl).guards hfb)
    obtain ⟨b', cur₂', hfb', hS, hext₂⟩ := (hf a a' ha).follows hext₁ hfb
    exact ⟨b', cur₂', bind_eq_ok_iff.mpr ⟨a', cur₁', hxa', hfb'⟩, hS, hext₂⟩

theorem bind_eq {x x' : Read α} {f f' : α → Read β} (hx : Tracks lit [] extra False Eq x x')
    (hf : ∀ a, Closes lit extra S (f a) (f' a)) : Closes lit extra S (x >>= f) (x' >>= f') :=
  bind_on (g := id) hx fun a a' (h : a = a') => h ▸ hf a

theorem of_fails {r r' : Read α} (h : ∀ cur a cur', r cur ≠ .ok (a, cur')) :
    Closes lit extra R r r' :=
  ⟨fun hr => absurd hr (h _ _ _), fun _ _ _ hr => absurd hr (h _ _ _)⟩

theorem ite {c : Prop} [Decidable c] {x x' y y' : Read α} (hx : Closes lit extra R x x')
    (hy : Closes lit extra R y y') :
    Closes lit extra R (if c then x else y) (if c then x' else y') := by
  split
  · exact hx
  · exact hy

theorem lookahead {f f' : List Char → Read α}
    (hstable : ∀ cs, Guarded [] extra (cs ++ []) → f' (cs ++ extra) = f' (cs ++ []))
    (hf : ∀ cs, Closes lit extra R (f cs) (f' cs)) :
    Closes lit extra R (rest >>= f) (rest >>= f') where
  guards h := by
    obtain ⟨_, _, ⟨⟩, h⟩ := bind_eq_ok_iff.mp h
    exact (hf _).guards h
  follows {cur cur'} hext b cur₁ h := by
    obtain ⟨_, _, ⟨⟩, h⟩ := bind_eq_ok_iff.mp h
    obtain ⟨b', cur₁', hb', hR, hext₁⟩ := (hf _).follows hext h
    refine ⟨b', cur₁', bind_eq_ok_iff.mpr ⟨cur'.rest, cur', rfl, ?_⟩, hR, hext₁⟩
    have hguarded : Guarded [] extra (cur.rest ++ []) := by
      rw [List.append_nil]
      exact (hf _).guards h
    rw [hext.rest_append, hstable cur.rest hguarded, List.append_nil]
    exact hb'

end Read.Closes

namespace Grammar

open Read (Alike Closes Tracks bind_eq_ok_iff)

section

variable {lit : String → String} {inner : Inner} (h : inner.Tracks lit) {extra : List Char}
include h

theorem argument_closes (word : Directive) :
    Closes lit extra (InvImage Eq (Expr.unplaced lit)) (argument inner word)
      (argument inner word) :=
  .bind_eq (openParen_tracks word) fun _ => .bind_on (h.expr _ _ _) fun _ _ he => .closeParen he

theorem assignment_closes :
    Closes lit extra
      (InvImage Eq fun p : Reference × Expr => (p.1.unplaced lit, p.2.unplaced lit))
      (assignment inner) (assignment inner) := by
  rw [assignment_eq]
  refine .bind_eq (openParen_tracks _) fun _ => .bind_eq (.skipWhile _) fun _ =>
    .bind_on (reference_tracks h) fun r r' hr => .bind_eq (.skipWhile _) fun _ =>
      .lookahead (fun cs hg => afterTarget_append r' hg) fun cs => ?_
  unfold afterTarget
  split
  · exact .of_fails fun _ _ _ => nofun
  · exact .bind_eq (.skip 1) fun _ => .bind_on (h.expr _ _ _) fun e e' he =>
      .closeParen (Prod.ext hr he)
  · exact .of_fails fun _ _ _ => nofun

theorem loopHead_closes :
    Closes lit extra (InvImage Eq fun p : String × Expr => (p.1, p.2.unplaced lit))
      (loopHead inner) (loopHead inner) := by
  refine .bind_eq (openParen_tracks _) fun _ => .bind_eq (.skipWhile _) fun _ =>
    .bind_on (reference_tracks h) fun r r' hr => ?_
  have hname := congrArg Reference.name hr
  have hbare := congrArg Reference.isBare hr
  simp only [Reference.name_unplaced, Reference.isBare_unplaced] at hname hbare
  rw [hbare]
  refine .ite (.bind_eq (.skipWhile _) fun _ => .bind_eq (.wholeWord (not_guard_of_any rfl))
    fun _ => .ite ?_ (.of_fails fun _ _ _ => nofun)) (.of_fails fun _ _ _ => nofun)
  exact .bind_on (h.expr _ _ _) fun e e' he => .closeParen (Prod.ext hname he)

/-- What has been read of a directive is read of it where something follows. -/
theorem head_follows {word : Directive} {p : Head word} {cur cur' cur₁ : Cursor}
    (hext : cur.Extends [] extra False cur') (hr : head inner word cur = .ok (p, cur₁)) :
    ∃ p' cur₁', head inner word cur' = .ok (p', cur₁') ∧
      Head.unplaced lit word p = Head.unplaced lit word p' ∧ cur₁.Extends [] extra False cur₁' := by
  cases word with
  | assign => exact (assignment_closes h).follows hext hr
  | forEach => exact (loopHead_closes h).follows hext hr
  | ifThen | elseIf | parse | insert => exact (argument_closes h _).follows hext hr
  | otherwise | finish | leave | stop =>
    cases hr
    exact ⟨(), cur', rfl, rfl, hext⟩

end

/-- The word of a directive ends where no letter follows. -/
theorem directive?_append {cs extra : List Char} {word : Directive} {n : Nat}
    (hword : directive? cs = some (word, n)) (hextra : ∀ c ∈ extra.head?, c.isAlpha = false) :
    directive? (cs ++ extra) = some (word, n) := by
  refine directive?_eq_some_iff.mpr ?_
  obtain ⟨rest, rfl, rfl, hrest⟩ | ⟨rest, rfl, rfl⟩ := directive?_eq_some_iff.mp hword
  · refine .inl ⟨rest ++ extra, List.append_assoc .., rfl, ?_⟩
    cases rest with
    | nil => exact hextra
    | cons c rest => exact hrest
  · exact .inr ⟨rest ++ extra, by simp, rfl⟩

theorem head_agree {n : Nat} {inner inner' : Inner} (h : inner.Agree n inner') :
    (word : Directive) → Read.AgreeWithin n (head inner word) (head inner' word)
  | .assign => assignment_agree h
  | .forEach => loopHead_agree h
  | .ifThen | .elseIf | .parse | .insert => argument_agree h _
  | .otherwise | .finish | .leave | .stop => .refl _

/-! ### Constructs -/

/-- The text is the whole of a directive with its arguments, or of a comment. -/
inductive IsConstruct : List Char → Prop
  | directive {cs : List Char} {word : Directive} {n : Nat} {p : Head word} {cur : Cursor}
      (hword : directive? cs = some (word, n))
      (hhead : head (Inner.upTo cs.length) word ((Cursor.ofChars ('#' :: cs) .start).skip (n + 1)) =
        .ok (p, cur)) (hend : cur.rest = []) : IsConstruct ('#' :: cs)
  | comment {cs : List Char}
      (hend : Text.indexOf? ['*', '#'] (cs ++ ['*', '#']) = some cs.length) :
      IsConstruct ('#' :: '*' :: (cs ++ ['*', '#']))

/-- A directive or a comment begins at `cur`, and what follows its line begins at `cur'`, where the
block goes on with `d'`. -/
inductive ConstructAt (inner : Inner) (d : Draft) (cur : Cursor) (d' : Draft) (cur' : Cursor) : Prop
  | directive {word : Directive} {p : Head word} (h : DirectiveAt inner d cur word p d' cur')
  | comment {cs : List Char} (hcs : cur.rest = '#' :: '*' :: cs)
      (hr : blockComment d cur = .ok (d', cur'))

section

/- A line behind a construct. -/
variable {blanks lineEnd back : List Char} (hblanks : ∀ c ∈ blanks, isInlineBlank c = true)
  (hend : IsLineEnd lineEnd back)
include hblanks hend

theorem isAlpha_of_lineEnd : ∀ c ∈ (blanks ++ (lineEnd ++ back)).head?, c.isAlpha = false := by
  cases blanks with
  | nil =>
    obtain rfl | rfl | ⟨rfl, rfl⟩ := hend
    · rintro _ ⟨⟩
      rfl
    · rintro _ ⟨⟩
      rfl
    · exact nofun
  | cons c blanks =>
    rintro _ ⟨⟩
    have hc := hblanks c List.mem_cons_self
    rw [isInlineBlank, Bool.or_eq_true, decide_eq_true_eq, decide_eq_true_eq] at hc
    obtain rfl | rfl := hc <;> rfl

/-- The indentation behind a line is that of the next line, if there is one. -/
theorem indent_lineEnd {cur : Cursor} (hcur : cur.rest = blanks ++ (lineEnd ++ back))
    (hindent : cur.indent = none) :
    (cur.skip (blanks.length + lineEnd.length)).indent =
      if lineEnd = [] then none else some 0 := by
  obtain rfl | rfl | ⟨rfl, rfl⟩ := hend
  · exact (Cursor.passes_skip hcur).indent
  · have hsplit : cur.rest = (blanks ++ ['\r']) ++ '\n' :: back := by
      rw [hcur, List.append_assoc]
      rfl
    have hpasses := Cursor.passes_skip hsplit
    rw [List.length_append] at hpasses
    exact hpasses.indent
  · have hskip := Cursor.indent_skip_blanks hblanks hcur
    rwa [hindent] at hskip

/-- A construct that stands alone on its line goes with the indentation and the line. -/
theorem gobble_lineEnd {cur : Cursor} (hcur : cur.rest = blanks ++ (lineEnd ++ back)) (n : Nat)
    (d : Draft) :
    Read.gobble (some n) d cur =
      .ok (d.trimIndent n, cur.skip (blanks.length + lineEnd.length)) := by
  refine gobble_eq_ok_iff.mpr (.inl ⟨n, _, rfl, ?_, rfl, rfl⟩)
  exact blankLineEnd?_eq_some_iff.mpr ⟨blanks, lineEnd, back, hcur, hblanks, hend, rfl⟩

/-- A directive is read where blanks and the end of its line follow it. -/
theorem directiveAt_of_whole (lit : String → String) {cs : List Char} {word : Directive} {n : Nat}
    {p : Head word} {cur₀ : Cursor} (hword : directive? cs = some (word, n))
    (hhead : head (Inner.upTo cs.length) word ((Cursor.ofChars ('#' :: cs) .start).skip (n + 1)) =
      .ok (p, cur₀)) (hwhole : cur₀.rest = []) {limit : Nat} {cur : Cursor}
    (hcur : cur.rest = '#' :: cs ++ (blanks ++ (lineEnd ++ back)))
    (hlimit : cur.rest.length ≤ limit) {k : Nat} (hindent : cur.indent = some k) (d : Draft) :
    ∃ p' cur', DirectiveAt (Inner.upTo limit) d cur word p' (d.trimIndent k) cur' ∧
      Head.unplaced lit word p = Head.unplaced lit word p' ∧ cur'.rest = back ∧
        cur'.indent = if lineEnd = [] then none else some 0 := by
  have hn : n ≤ cs.length := Nat.le_of_lt_succ (word_solid hword).1
  have hcs : cs.length ≤ limit := by
    rw [hcur, List.length_append, List.length_cons] at hlimit
    omega
  have hstart : ((Cursor.ofChars ('#' :: cs) .start).skip (n + 1)).rest = cs.drop n := by
    rw [Cursor.rest_skip]
    rfl
  have hagree := head_agree (Inner.upTo_agree (Nat.le_refl cs.length) hcs) word
    ((Cursor.ofChars ('#' :: cs) .start).skip (n + 1)) (by rw [hstart, List.length_drop]; omega)
  rw [hagree] at hhead
  have hext : ((Cursor.ofChars ('#' :: cs) .start).skip (n + 1)).Extends []
      (blanks ++ (lineEnd ++ back)) False (cur.skip (n + 1)) := by
    refine .of_append ?_ False.elim
    rw [hstart, Cursor.rest_skip, hcur, List.cons_append, List.drop_succ_cons,
      List.drop_append_of_le_length hn]
  obtain ⟨p', cur₁, hhead', hp, hext₁⟩ := head_follows (Inner.upTo_tracks lit limit) hext hhead
  have hcur₁ : cur₁.rest = blanks ++ (lineEnd ++ back) := by
    rw [hext₁.rest_append, hwhole, List.nil_append]
  have hword' := directive?_append hword (isAlpha_of_lineEnd hblanks hend)
  have hsolid := head_solid (Inner.upTo_shrinks limit) hcur hword' hhead'
  refine ⟨p', cur₁.skip (blanks.length + lineEnd.length),
    ⟨_, n, cur₁, hcur, hword', hhead', ?_⟩, hp, ?_, indent_lineEnd hblanks hend hcur₁ hsolid.indent⟩
  · rw [hindent]
    exact gobble_lineEnd hblanks hend hcur₁ k d
  · rw [Cursor.rest_skip, hcur₁, ← List.append_assoc, ← List.length_append, List.drop_left]

/-- A comment is read where blanks and the end of its line follow it. -/
theorem blockComment_of_whole {cs : List Char}
    (hwhole : Text.indexOf? ['*', '#'] (cs ++ ['*', '#']) = some cs.length) {cur : Cursor}
    (hcur : cur.rest = '#' :: '*' :: (cs ++ ['*', '#']) ++ (blanks ++ (lineEnd ++ back))) {k : Nat}
    (hindent : cur.indent = some k) (d : Draft) :
    ∃ cur', blockComment d cur = .ok (d.trimIndent k, cur') ∧ cur'.rest = back ∧
      cur'.indent = if lineEnd = [] then none else some 0 := by
  have hfound : Text.indexOf? ['*', '#'] (cur.rest.drop 2) = some cs.length := by
    rw [hcur]
    refine (Text.indexOf?_append_iff ?_ _).mpr hwhole
    rw [List.length_append]
  have hcur₁ : (cur.skip (cs.length + 4)).rest = blanks ++ (lineEnd ++ back) := by
    rw [Cursor.rest_skip, hcur]
    refine List.drop_left' ?_
    simp only [List.length_cons, List.length_append, List.length_nil]
  refine ⟨(cur.skip (cs.length + 4)).skip (blanks.length + lineEnd.length),
    blockComment_eq_ok_iff.mpr ⟨cs.length, hfound, ?_⟩, ?_,
    indent_lineEnd hblanks hend hcur₁ (comment_solid hfound).indent⟩
  · rw [hindent]
    exact gobble_lineEnd hblanks hend hcur₁ k d
  · rw [Cursor.rest_skip, hcur₁, ← List.append_assoc, ← List.length_append, List.drop_left]

end

theorem step_of_comment {inner : Inner} {d d' : Draft} {cur cur' : Cursor} {cs : List Char}
    (hcs : cur.rest = '#' :: '*' :: cs) (hr : blockComment d cur = .ok (d', cur')) :
    step inner d cur = .ok (.goOn d', cur') := by
  rw [step_eq, hcs]
  change hash inner d cur = _
  rw [hash_eq, hcs]
  exact bind_eq_ok_iff.mpr ⟨d', cur', hr, rfl⟩

theorem IsConstruct.ne_nil {cs : List Char} (h : IsConstruct cs) : cs ≠ [] := by
  cases h <;> exact List.cons_ne_nil _ _

/-- A construct on a line of its own is read alike with other blanks around it, and none of them is
left in the text before it. -/
theorem IsConstruct.step_alike (lit : String → String) {construct : List Char}
    (h : IsConstruct construct) {blanks blanks' lineEnd back : List Char}
    (hblanks : ∀ c ∈ blanks, isInlineBlank c = true)
    (hblanks' : ∀ c ∈ blanks', isInlineBlank c = true) (hend : IsLineEnd lineEnd back)
    {limit : Nat} {cur cur' : Cursor} (hcur : cur.rest = construct ++ (blanks ++ (lineEnd ++ back)))
    (hcur' : cur'.rest = construct ++ (blanks' ++ (lineEnd ++ back)))
    (hlimit : cur.rest.length ≤ limit) (hlimit' : cur'.rest.length ≤ limit) {k k' : Nat}
    (hindent : cur.indent = some k) (hindent' : cur'.indent = some k') {d d' : Draft}
    (hd : (d.trimIndent k).unplaced lit = (d'.trimIndent k').unplaced lit) :
    Alike lit (InvImage Eq (Step.unplaced lit)) (step (Inner.upTo limit) d cur)
        (step (Inner.upTo limit) d' cur') ∧
      ∃ cur₁, ConstructAt (Inner.upTo limit) d cur (d.trimIndent k) cur₁ ∧ cur₁.rest = back := by
  cases h with
  | @directive cs word n p cur₀ hword hhead hwhole =>
    obtain ⟨p₁, cur₁, hdirective, hp, hrest, hindent₁⟩ :=
      directiveAt_of_whole hblanks hend lit hword hhead hwhole hcur hlimit hindent d
    obtain ⟨p₁', cur₁', hdirective', hp', hrest', hindent₁'⟩ :=
      directiveAt_of_whole hblanks' hend lit hword hhead hwhole hcur' hlimit' hindent' d'
    refine ⟨?_, cur₁, .directive hdirective, hrest⟩
    rw [hdirective.step_eq, hdirective'.step_eq]
    have hext : cur₁.Extends [] [] True cur₁' :=
      .of_append (by rw [hrest, hrest', List.append_nil]) fun _ => hindent₁'.trans hindent₁.symm
    exact (proceed_congr Tracks.congruence (Inner.upTo_tracks lit limit).block _ _ hd word
      (hp.symm.trans hp')).alike hext
  | @comment cs hwhole =>
    obtain ⟨cur₁, hcomment, hrest, hindent₁⟩ :=
      blockComment_of_whole hblanks hend hwhole hcur hindent d
    obtain ⟨cur₁', hcomment', hrest', hindent₁'⟩ :=
      blockComment_of_whole hblanks' hend hwhole hcur' hindent' d'
    refine ⟨?_, cur₁, .comment hcur hcomment, hrest⟩
    rw [step_of_comment hcur hcomment, step_of_comment hcur' hcomment']
    exact ⟨congrArg Step.goOn hd, .of_append (by rw [hrest, hrest', List.append_nil])
      fun _ => hindent₁'.trans hindent₁.symm⟩

/-! ### Blanks before a construct -/

theorem dropBlanks_append {blanks : List Char} (hblanks : ∀ c ∈ blanks, isInlineBlank c = true)
    (cs : List Char) : Draft.dropBlanks blanks.length (blanks ++ cs) = cs := by
  induction blanks with
  | nil => cases cs <;> rfl
  | cons c blanks ih =>
    have ⟨hc, hmore⟩ := List.forall_mem_cons.mp hblanks
    rw [List.length_cons, List.cons_append, Draft.dropBlanks, if_pos hc, ih hmore]

/-- What an indentation has added to a draft is taken back. -/
theorem trimIndent_append {blanks : List Char} (hblanks : ∀ c ∈ blanks, isInlineBlank c = true)
    (d : Draft) : (d.append blanks).trimIndent blanks.length = d := by
  have hreverse : Draft.dropBlanks blanks.reverse.length (blanks.reverse ++ d.text) = d.text :=
    dropBlanks_append (fun c hc => hblanks c (List.mem_reverse.mp hc)) d.text
  rw [List.length_reverse] at hreverse
  rw [Draft.trimIndent, Draft.append, hreverse]

/-- A block takes blanks as characters of its text. -/
theorem blockFrom_blanks {limit : Nat} {blanks back : List Char}
    (hblanks : ∀ c ∈ blanks, isInlineBlank c = true) {cur : Cursor}
    (hcur : cur.rest = blanks ++ back) (hlimit : cur.rest.length ≤ limit) (d : Draft) :
    blockFrom (Inner.upTo limit) (limit + 1) d cur =
      blockFrom (Inner.upTo limit) (limit + 1) (d.append blanks) (cur.skip blanks.length) := by
  induction blanks generalizing cur d with
  | nil => rfl
  | cons c blanks ih =>
    have ⟨hc, hmore⟩ := List.forall_mem_cons.mp hblanks
    have hpart : step (Inner.upTo limit) d cur = .ok (.goOn (d.push c), cur.next) := by
      rw [step_eq, hcur, List.cons_append, List.head?_cons]
      rw [isInlineBlank, Bool.or_eq_true, decide_eq_true_eq, decide_eq_true_eq] at hc
      obtain rfl | rfl := hc <;> rfl
    have hnext : cur.next.rest = blanks ++ back := by
      rw [Cursor.rest_next, hcur]
      rfl
    have hle : cur.next.rest.length ≤ limit := by
      rw [Cursor.rest_next, List.length_tail]
      omega
    rw [blockFrom_of_part hlimit hpart, ih hmore hnext hle]
    congr 1
    rw [Draft.append, Draft.append, Draft.push, List.reverse_cons, List.append_assoc]
    rfl

/-- From the beginning of its line on, a construct on a line of its own is read alike without the
blanks, and the block goes on with what it has before the line. -/
theorem IsConstruct.blockFrom_alike (lit : String → String) {construct : List Char}
    (h : IsConstruct construct) {blanks blanks' lineEnd back : List Char}
    (hblanks : ∀ c ∈ blanks, isInlineBlank c = true)
    (hblanks' : ∀ c ∈ blanks', isInlineBlank c = true) (hend : IsLineEnd lineEnd back)
    {limit : Nat} {line line' : Cursor}
    (hline : line.rest = blanks ++ (construct ++ (blanks' ++ (lineEnd ++ back))))
    (hline' : line'.rest = construct ++ (lineEnd ++ back)) (hlimit : line.rest.length ≤ limit)
    (hlimit' : line'.rest.length ≤ limit) (hindent : line.indent = some 0)
    (hindent' : line'.indent = some 0) {d d' : Draft} (hd : d.unplaced lit = d'.unplaced lit) :
    Alike lit (InvImage Eq (Block.unplaced lit))
        (blockFrom (Inner.upTo limit) (limit + 1) d line)
        (blockFrom (Inner.upTo limit) (limit + 1) d' line') ∧
      ∃ cur, ConstructAt (Inner.upTo limit) (d.append blanks) (line.skip blanks.length) d cur ∧
        cur.rest = back := by
  have hnil : ∀ c ∈ ([] : List Char), isInlineBlank c = true := nofun
  have hcur : (line.skip blanks.length).rest = construct ++ (blanks' ++ (lineEnd ++ back)) := by
    rw [Cursor.rest_skip, hline, List.drop_left]
  have hlimit₁ : (line.skip blanks.length).rest.length ≤ limit := by
    rw [Cursor.rest_skip, List.length_drop]
    omega
  have hindent₁ : (line.skip blanks.length).indent = some blanks.length := by
    rw [Cursor.indent_skip_blanks hblanks hline, hindent, Option.map_some, Nat.zero_add]
  have htrimmed : ((d.append blanks).trimIndent blanks.length).unplaced lit =
      ((d'.append []).trimIndent ([] : List Char).length).unplaced lit := by
    rw [trimIndent_append hblanks, trimIndent_append hnil, hd]
  obtain ⟨hparts, cur, hconstruct, hrest⟩ := h.step_alike lit hblanks' hnil hend hcur hline'
    hlimit₁ hlimit' hindent₁ hindent' htrimmed
  rw [trimIndent_append hblanks] at hconstruct
  refine ⟨?_, cur, hconstruct, hrest⟩
  rw [blockFrom_blanks hblanks hline hlimit]
  exact alike_blockFrom hparts

end Grammar

/-! ### Sources -/

/-- What parsing gives, without places. -/
def unplacedOutcome : Except SyntaxError (List Node) → Except SyntaxFault (List Node)
  | .ok ns => .ok (ns.map (Node.unplaced id))
  | .error e => .error (e.fault.unplaced id)

namespace Grammar

open Read (Alike)

theorem parse_eq {source : String} {limit : Nat} (hlimit : source.toList.length ≤ limit) :
    parse source = (blockFrom (Inner.upTo limit) (limit + 1) .empty
      (.ofChars source.toList .start) >>= fun p => p.1.whole) := by
  rw [← block_eq_blockFrom hlimit]
  have hagree := (Inner.upTo_agree (Nat.le_refl _) hlimit).block
    (.ofChars source.toList .start) (Nat.le_refl _)
  rw [← hagree]
  rfl

theorem unplacedOutcome_eq {x x' : Except SyntaxError (Block × Cursor)}
    (h : Alike id (InvImage Eq (Block.unplaced id)) x x') :
    unplacedOutcome (x >>= fun p => p.1.whole) = unplacedOutcome (x' >>= fun p => p.1.whole) := by
  cases x with
  | error e =>
    cases x' with
    | error e' => exact congrArg Except.error h
    | ok p' => exact h.elim
  | ok p =>
    cases x' with
    | error e' => exact h.elim
    | ok p' =>
      change unplacedOutcome p.1.whole = unplacedOutcome p'.1.whole
      cases hwhole : p.1.whole with
      | error e =>
        obtain ⟨e', he', heq⟩ := Block.whole_eq_error h.1 hwhole
        rw [he']
        exact congrArg Except.error heq
      | ok ns =>
        obtain ⟨ns', hns', heq⟩ := Block.whole_eq_ok h.1 hwhole
        rw [hns']
        exact congrArg Except.ok heq

end Grammar

open Grammar in
/-- **A construct that stands alone on its line takes the line with it.** The source has lines, then
blanks, a directive or a comment, further blanks, and the end of the line. Where the construct is
reached at block level, the outcome is the one without the blanks, places apart, be it nodes or a
fault. What the block has before the line is what it goes on with after it, so that neither the
blanks nor the end of the line are in a text. -/
theorem parse_own_line {lines blanks construct blanks' lineEnd back : List Char}
    (hlines : WholeLines lines) (hblanks : ∀ c ∈ blanks, isInlineBlank c = true)
    (hconstruct : IsConstruct construct) (hblanks' : ∀ c ∈ blanks', isInlineBlank c = true)
    (hend : IsLineEnd lineEnd back) {source : String}
    (hsource : source.toList = lines ++ (blanks ++ (construct ++ (blanks' ++ (lineEnd ++ back)))))
    {d : Draft} {cur : Cursor}
    (hplace : BlockAt (Inner.upTo source.toList.length) (.ofChars source.toList .start) d cur)
    (hcur : cur.rest = construct ++ (blanks' ++ (lineEnd ++ back))) :
    unplacedOutcome (parse source) =
        unplacedOutcome (parse (String.ofList (lines ++ (construct ++ (lineEnd ++ back))))) ∧
      ∃ d₀ line cur', BlockAt (Inner.upTo source.toList.length) (.ofChars source.toList .start) d₀
          line ∧ line.rest = blanks ++ (construct ++ (blanks' ++ (lineEnd ++ back))) ∧
        ConstructAt (Inner.upTo source.toList.length) d cur d₀ cur' ∧ cur'.rest = back := by
  have hne : construct ++ (blanks' ++ (lineEnd ++ back)) ≠ [] :=
    List.append_ne_nil_of_left_ne_nil hconstruct.ne_nil _
  obtain ⟨d₀, line, hplace₀, hline, hindent, rfl, rfl⟩ := hplace.exists_lineStart
    (Inner.upTo_shrinks _) (Inner.upTo_unblank _) hlines hblanks hne hsource rfl hcur
  -- Up to the beginning of the line both sources are read alike.
  have hstarts : (Cursor.ofChars source.toList .start).InLines
      (blanks ++ (construct ++ (blanks' ++ (lineEnd ++ back)))) (construct ++ (lineEnd ++ back))
      (.ofChars (lines ++ (construct ++ (lineEnd ++ back))) .start) :=
    ⟨⟨lines, hlines, hsource, rfl⟩, rfl⟩
  have hle : (Cursor.ofChars source.toList .start).rest.length ≤ source.toList.length :=
    Nat.le_refl _
  have hle' : (lines ++ (construct ++ (lineEnd ++ back))).length ≤ source.toList.length := by
    rw [hsource]
    simp only [List.length_append]
    omega
  obtain ⟨d₀', line', hd₀, hlines₀, hlimit, hlimit', hsources⟩ :=
    hplace₀.carries (List.append_ne_nil_of_right_ne_nil _ hne) id hstarts hle hle' (by rw [hline])
  -- From the construct on they are read alike too, since the blanks before it are taken back.
  obtain ⟨hblocks, cur', hconstruct, hrest⟩ := hconstruct.blockFrom_alike id hblanks hblanks' hend
    hline (hlines₀.rest_eq hline) hlimit hlimit' hindent (hlines₀.indent.trans hindent) hd₀
  refine ⟨?_, d₀, line, cur', hplace₀, hline, hconstruct, hrest⟩
  have hlist : (String.ofList (lines ++ (construct ++ (lineEnd ++ back)))).toList =
      lines ++ (construct ++ (lineEnd ++ back)) := String.toList_ofList
  rw [← hlist] at hle' hsources
  rw [parse_eq (Nat.le_refl _), parse_eq hle']
  exact unplacedOutcome_eq (hsources hblocks)

open Grammar in
/-- In the body of a condition. -/
theorem parse_own_line_in_condition :
    unplacedOutcome (parse "#if($a)\n #stop \r\nb#end") =
      unplacedOutcome (parse "#if($a)\n#stop\r\nb#end") := by
  have hsource : "#if($a)\n #stop \r\nb#end".toList =
      ['#', 'i', 'f', '(', '$', 'a', ')', '\n'] ++ ([' '] ++ (['#', 's', 't', 'o', 'p'] ++
        ([' '] ++ (['\r', '\n'] ++ ['b', '#', 'e', 'n', 'd'])))) := by
    simp
  have hlines : WholeLines ['#', 'i', 'f', '(', '$', 'a', ')', '\n'] := by
    rintro _ ⟨⟩
    rfl
  have hconstruct : IsConstruct ['#', 's', 't', 'o', 'p'] :=
    @IsConstruct.directive ['s', 't', 'o', 'p'] .stop 4 () ⟨[], ⟨1, 6⟩, none⟩ rfl rfl rfl
  have hplace : BlockAt (Inner.upTo "#if($a)\n #stop \r\nb#end".toList.length)
      (.ofChars "#if($a)\n #stop \r\nb#end".toList .start) ⟨[], [' ']⟩
      ⟨['#', 's', 't', 'o', 'p', ' ', '\r', '\n', 'b', '#', 'e', 'n', 'd'], ⟨2, 2⟩, some 1⟩ := by
    rw [hsource]
    exact .part (.branch .source (.first ⟨_, 2, _, rfl, rfl, rfl, rfl⟩)) rfl
  exact (parse_own_line hlines (by simp [isInlineBlank]) hconstruct (by simp [isInlineBlank])
    (.inr (.inl rfl)) hsource hplace rfl).1

end GatewayMapping.Template
