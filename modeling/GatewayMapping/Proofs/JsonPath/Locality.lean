import GatewayMapping.Proofs.JsonPath.FilterReading

/-!
# What stands behind a closing parenthesis

A reader that stops before a closing parenthesis has not looked behind it: no sign and no name goes
on with one, and no reader looks ahead further than a sign is long. So what it has read and where
it has stopped stays the same if another text follows the parenthesis. Limits that are no less than
the number of characters left are never reached, and stay out of the way.

## Main definitions

* `Read.Carries`: what one reader reads before a parenthesis the other one reads as well.

## Main results

* `Read.filterUpTo_carries`: filters are read before other texts.
-/

namespace GatewayMapping.JsonPath.Read

open Text (isBlank)

variable {α β : Type} {n m : Nat}

/-! ### Readers before a closing parenthesis -/

/-- What `r` reads of a text of at most `n` characters before a closing parenthesis of it, `r'`
reads of any text that is the same up to the parenthesis. What `r` leaves ends the text. -/
structure Carries (n : Nat) (r r' : Read α) : Prop where
  suffix ⦃cs left : List Char⦄ ⦃a : α⦄ : r cs = .ok (a, left) → left <:+ cs
  reads ⦃cs left tail : List Char⦄ ⦃a : α⦄ : (cs ++ ')' :: tail).length ≤ n →
    r (cs ++ ')' :: tail) = .ok (a, left ++ ')' :: tail) →
      ∀ tail', r' (cs ++ ')' :: tail') = .ok (a, left ++ ')' :: tail')

/-- A text between a text and its end has the same end. -/
theorem exists_append_of_suffix {cs mid left tail : List Char} (hmid : mid <:+ cs ++ ')' :: tail)
    (hleft : left ++ ')' :: tail <:+ mid) : ∃ between, mid = between ++ ')' :: tail ∧
      between.length ≤ cs.length := by
  obtain ⟨before, rfl⟩ := hleft
  refine ⟨before ++ left, (List.append_assoc ..).symm, ?_⟩
  have := hmid.length_le
  simp only [List.length_append] at this ⊢
  omega

namespace Carries

variable {r r' : Read α} {f f' : α → Read β}

theorem mono (h : Carries n r r') (hmn : m ≤ n) : Carries m r r' :=
  ⟨h.suffix, fun _ _ _ _ hm => h.reads (hm.trans hmn)⟩

/-- A text that ends with a parenthesis is not empty. -/
theorem of_suffix (h : ∀ cs left a, r cs = .ok (a, left) → left <:+ cs) : Carries 0 r r' :=
  ⟨fun _ _ _ => h _ _ _, fun cs left tail a h0 => by simp at h0⟩

/-- A reader that leaves the text and tells of it what does not depend on what follows the
parenthesis. -/
theorem look {view : List Char → α}
    (h : ∀ cs tail tail', view (cs ++ ')' :: tail) = view (cs ++ ')' :: tail')) :
    Carries n (fun cs => .ok (view cs, cs)) (fun cs => .ok (view cs, cs)) where
  suffix cs left a ha := by
    obtain ⟨-, rfl⟩ := Prod.mk.inj (Except.ok.inj ha)
    exact List.suffix_refl _
  reads cs left tail a _ ha tail' := by
    obtain ⟨rfl, hleft⟩ := Prod.mk.inj (Except.ok.inj ha)
    obtain rfl := List.append_cancel_right hleft
    rw [h cs tail tail']

theorem pure (a : α) : Carries n (Pure.pure a : Read α) (Pure.pure a) :=
  look fun _ _ _ => rfl

theorem fail (flaw : Flaw) : Carries n (Read.fail flaw : Read α) (Read.fail flaw) :=
  ⟨nofun, nofun⟩

/-- Sequences carry if their parts do, whatever the first part has read. -/
theorem bind (hr : Carries n r r') (hf : ∀ a, Carries n (f a) (f' a)) :
    Carries n (r >>= f) (r' >>= f') where
  suffix cs left b h := by
    obtain ⟨a, mid, ha, hb⟩ := bind_eq_ok_iff.mp h
    exact ((hf a).suffix hb).trans (hr.suffix ha)
  reads cs left tail b hn h tail' := by
    obtain ⟨a, mid, ha, hb⟩ := bind_eq_ok_iff.mp h
    obtain ⟨between, rfl, hbetween⟩ :=
      exists_append_of_suffix (hr.suffix ha) ((hf a).suffix hb)
    have hlength : (between ++ ')' :: tail).length ≤ n := by
      rw [List.length_append] at hn ⊢
      omega
    exact bind_eq_ok_iff.mpr ⟨a, _, hr.reads hn ha tail', (hf a).reads hlength hb tail'⟩

theorem ite {c : Prop} [Decidable c] {x x' y y' : Read α} (hx : Carries n x x')
    (hy : Carries n y y') : Carries n (if c then x else y) (if c then x' else y') := by
  split
  · exact hx
  · exact hy

/-- The parenthesis is not passed over, so a character before it is. -/
theorem skip_bind (h : Carries n r r') :
    Carries (n + 1) (skip 1 >>= fun _ => r) (skip 1 >>= fun _ => r') where
  suffix cs left a ha := by
    have hleft : left <:+ cs.drop 1 := h.suffix ha
    exact hleft.trans (List.drop_suffix 1 cs)
  reads cs left tail a hn ha tail' := by
    change r ((cs ++ ')' :: tail).drop 1) = _ at ha
    change r' ((cs ++ ')' :: tail').drop 1) = _
    cases cs with
    | nil =>
      have := (h.suffix ha).length_le
      simp only [List.nil_append, List.drop_succ_cons, List.drop_zero, List.length_append,
        List.length_cons] at this
      omega
    | cons c cs =>
      rw [List.cons_append, List.drop_succ_cons, List.drop_zero] at ha ⊢
      rw [List.cons_append, List.length_cons] at hn
      exact h.reads (Nat.le_of_succ_le_succ hn) ha tail'

theorem skip_bind' (h : Carries n r r') :
    Carries n (skip 1 >>= fun _ => r) (skip 1 >>= fun _ => r') :=
  h.skip_bind.mono (Nat.le_succ n)

end Carries

/-! ### Characters and words -/

/-- Characters of a class that end before a parenthesis end there whatever follows it. -/
theorem dropWhile_before_paren {p : Char → Bool} {cs left tail : List Char}
    (h : (cs ++ ')' :: tail).dropWhile p = left ++ ')' :: tail) (tail' : List Char) :
    (cs ++ ')' :: tail').takeWhile p = (cs ++ ')' :: tail).takeWhile p ∧
      (cs ++ ')' :: tail').dropWhile p = left ++ ')' :: tail' := by
  induction cs with
  | nil =>
    by_cases hp : p ')' = true
    · have hlength := (List.dropWhile_suffix p (l := tail)).length_le
      rw [List.nil_append, List.dropWhile_cons_of_pos hp] at h
      rw [h, List.length_append, List.length_cons] at hlength
      omega
    · rw [List.nil_append, List.dropWhile_cons_of_neg hp] at h
      obtain rfl := List.self_eq_append_left.mp h
      simp [hp]
  | cons c cs ih =>
    by_cases hp : p c = true
    · rw [List.cons_append, List.dropWhile_cons_of_pos hp] at h
      simpa [hp] using ih h
    · rw [List.cons_append, List.dropWhile_cons_of_neg hp, ← List.cons_append] at h
      obtain rfl := List.append_cancel_right h
      simp [hp]

/-- A sign without a parenthesis ends before one. -/
theorem prefix_before_paren_iff {s cs tail : List Char} (hs : ')' ∉ s) :
    s <+: cs ++ ')' :: tail ↔ s <+: cs := by
  induction s generalizing cs with
  | nil => exact iff_of_true (List.nil_prefix ..) (List.nil_prefix ..)
  | cons d s ih =>
    obtain ⟨hd, hs⟩ := not_or.mp (mt List.mem_cons.mpr hs)
    cases cs with
    | nil => simp [List.cons_prefix_cons, Ne.symm hd]
    | cons c cs => rw [List.cons_append, List.cons_prefix_cons, List.cons_prefix_cons, ih hs]

namespace Carries

theorem peek? : Carries n Read.peek? Read.peek? :=
  look fun cs _ _ => by cases cs <;> rfl

theorem skip : Carries n (Read.skip 1) (Read.skip 1) := by
  have h : Carries n (Read.skip 1 >>= fun _ => Pure.pure ()) _ := (pure ()).skip_bind'
  exact h

theorem char (c : Char) : Carries n (Read.char c) (Read.char c) :=
  .bind .peek? fun _ => .ite .skip (.fail _)

theorem takeWhile (p : Char → Bool) : Carries n (Read.takeWhile p) (Read.takeWhile p) where
  suffix cs left a ha := by
    obtain ⟨-, rfl⟩ := Prod.mk.inj (Except.ok.inj ha)
    exact List.dropWhile_suffix p
  reads cs left tail a _ ha tail' := by
    obtain ⟨rfl, hleft⟩ := Prod.mk.inj (Except.ok.inj ha)
    obtain ⟨htake, hdrop⟩ := dropWhile_before_paren hleft tail'
    rw [← htake, ← hdrop]
    rfl

theorem skipBlanks : Carries n Read.skipBlanks Read.skipBlanks := by
  have h : Carries n (Read.takeWhile isBlank >>= fun _ => Pure.pure ()) _ :=
    .bind (.takeWhile isBlank) fun _ => .pure ()
  exact h

/-- After a sign, less is left than before it. -/
theorem sign_bind {s : List Char} (hs : ')' ∉ s) (hne : s ≠ []) {f f' : Bool → Read α}
    (ht : Carries n (f true) (f' true)) (hf : Carries (n + 1) (f false) (f' false)) :
    Carries (n + 1) (Read.sign s >>= f) (Read.sign s >>= f') where
  suffix cs left a h := by
    by_cases hpre : s <+: cs
    · obtain ⟨rest, rfl⟩ := hpre
      rw [bind_eq_of_ok (sign_append s rest)] at h
      exact (ht.suffix h).trans (List.suffix_append s rest)
    · rw [bind_eq_of_ok (sign_false hpre)] at h
      exact hf.suffix h
  reads cs left tail a hn h tail' := by
    by_cases hpre : s <+: cs
    · obtain ⟨rest, rfl⟩ := hpre
      have hpos := List.length_pos_iff.mpr hne
      simp only [List.append_assoc] at hn h ⊢
      rw [bind_eq_of_ok (sign_append s _)] at h ⊢
      rw [List.length_append] at hn
      exact ht.reads (by omega) h tail'
    · rw [bind_eq_of_ok (sign_false (mt (prefix_before_paren_iff hs).mp hpre))] at h ⊢
      exact hf.reads hn h tail'

theorem sign {s : List Char} (hs : ')' ∉ s) (hne : s ≠ []) :
    Carries n (Read.sign s) (Read.sign s) := by
  have h : Carries n (Read.sign s >>= Pure.pure) (Read.sign s >>= Pure.pure) :=
    (sign_bind hs hne (.pure true) (.pure false)).mono (Nat.le_succ n)
  rwa [bind_pure] at h

theorem name : Carries n Read.name Read.name :=
  .bind (.takeWhile _) fun _ => .pure _

end Carries

/-! ### Quotes and patterns -/

/-- Content up to a closing character, with the text after that. -/
structure ClosesBefore (content? : List Char → Option (List Char × List Char)) : Prop where
  suffix ⦃cs content rest : List Char⦄ : content? cs = some (content, rest) → rest <:+ cs.tail
  reads ⦃cs content left tail : List Char⦄ :
    content? (cs ++ ')' :: tail) = some (content, left ++ ')' :: tail) →
      ∀ tail', content? (cs ++ ')' :: tail') = some (content, left ++ ')' :: tail')

/-- Nothing that follows a parenthesis ends with it. -/
theorem not_suffix_of_paren {left tail : List Char} : ¬left ++ ')' :: tail <:+ tail := by
  intro h
  have := h.length_le
  rw [List.length_append, List.length_cons] at this
  omega

theorem quotedContent?_slash (quote d : Char) (cs : List Char) :
    quotedContent? quote ('\\' :: d :: cs) =
      (quotedContent? quote cs).map fun (content, rest) => (d :: content, rest) := by
  rw [quotedContent?.eq_def]
  rfl

theorem quotedContent?_quote {quote : Char} (hquote : quote ≠ '\\') (cs : List Char) :
    quotedContent? quote (quote :: cs) = some ([], cs) := by
  rw [quotedContent?.eq_def]
  dsimp only
  rw [if_neg hquote, if_pos rfl]

theorem suffix_tail_of_quotedContent? {quote : Char} {cs content rest : List Char}
    (h : quotedContent? quote cs = some (content, rest)) : rest <:+ cs.tail := by
  induction cs using quotedContent?.induct quote generalizing content with
  | case1 => cases h
  | case2 => cases h
  | case3 d ds ih =>
    rw [quotedContent?_slash, Option.map_eq_some_iff] at h
    obtain ⟨⟨content, rest⟩, hds, rfl, rfl⟩ := h
    exact ((ih hds).trans (List.tail_suffix ds)).trans (List.suffix_cons d ds)
  | case4 ds hquote =>
    rw [quotedContent?_quote hquote] at h
    cases h
    exact List.suffix_refl _
  | case5 d ds hslash hquote ih =>
    rw [quotedContent?_of_ne hslash hquote, Option.map_eq_some_iff] at h
    obtain ⟨⟨content, rest⟩, hds, rfl, rfl⟩ := h
    exact (ih hds).trans (List.tail_suffix ds)

theorem closesBefore_quotedContent? (quote : Char) : ClosesBefore (quotedContent? quote) where
  suffix _ _ _ := suffix_tail_of_quotedContent?
  reads cs content left tail h tail' := by
    induction cs using quotedContent?.induct quote generalizing content with
    | case1 => exact absurd (suffix_tail_of_quotedContent? h) not_suffix_of_paren
    | case2 =>
      -- The parenthesis itself would be taken behind the backslash.
      rw [List.cons_append, List.nil_append, quotedContent?_slash, Option.map_eq_some_iff] at h
      obtain ⟨⟨content, rest⟩, htail, rfl, rfl⟩ := h
      have hsuffix := (suffix_tail_of_quotedContent? htail).trans (List.tail_suffix tail)
      exact absurd hsuffix not_suffix_of_paren
    | case3 d ds ih =>
      simp only [List.cons_append, quotedContent?_slash, Option.map_eq_some_iff] at h ⊢
      obtain ⟨⟨content, rest⟩, hds, rfl, rfl⟩ := h
      exact ⟨(content, _), ih _ hds, rfl⟩
    | case4 ds hquote =>
      rw [List.cons_append, quotedContent?_quote hquote] at h ⊢
      obtain ⟨rfl, hrest⟩ := Prod.mk.inj (Option.some.inj h)
      rw [List.append_cancel_right hrest]
    | case5 d ds hslash hquote ih =>
      simp only [List.cons_append, quotedContent?_of_ne hslash hquote,
        Option.map_eq_some_iff] at h ⊢
      obtain ⟨⟨content, rest⟩, hds, rfl, rfl⟩ := h
      exact ⟨(content, _), ih _ hds, rfl⟩

theorem patternContent?_slash (cs : List Char) : patternContent? ('/' :: cs) = some ([], cs) := by
  rw [patternContent?, if_pos rfl]
  exact fun _ h => absurd h (by decide)

theorem patternContent?_of_ne {c : Char} {cs : List Char} (hc : c ≠ '/')
    (hescape : ∀ ds, c = '\\' → cs ≠ '/' :: ds) :
    patternContent? (c :: cs) =
      (patternContent? cs).map fun (content, rest) => (c :: content, rest) := by
  rw [patternContent?, if_neg hc]
  exact hescape

theorem suffix_tail_of_patternContent? {cs content rest : List Char}
    (h : patternContent? cs = some (content, rest)) : rest <:+ cs.tail := by
  induction cs using patternContent?.induct generalizing content with
  | case1 => cases h
  | case2 cs ih =>
    rw [patternContent?, Option.map_eq_some_iff] at h
    obtain ⟨⟨content, rest⟩, hcs, rfl, rfl⟩ := h
    exact ((ih hcs).trans (List.tail_suffix cs)).trans (List.suffix_cons '/' cs)
  | case3 cs =>
    rw [patternContent?_slash] at h
    cases h
    exact List.suffix_refl _
  | case4 c cs hescape hc ih =>
    rw [patternContent?_of_ne hc hescape, Option.map_eq_some_iff] at h
    obtain ⟨⟨content, rest⟩, hcs, rfl, rfl⟩ := h
    exact (ih hcs).trans (List.tail_suffix cs)

theorem closesBefore_patternContent? : ClosesBefore patternContent? where
  suffix _ _ _ := suffix_tail_of_patternContent?
  reads cs content left tail h tail' := by
    induction cs using patternContent?.induct generalizing content with
    | case1 => exact absurd (suffix_tail_of_patternContent? h) not_suffix_of_paren
    | case2 cs ih =>
      simp only [List.cons_append, patternContent?, Option.map_eq_some_iff] at h ⊢
      obtain ⟨⟨content, rest⟩, hcs, rfl, rfl⟩ := h
      exact ⟨(content, _), ih _ hcs, rfl⟩
    | case3 cs =>
      rw [List.cons_append, patternContent?_slash] at h ⊢
      obtain ⟨rfl, hrest⟩ := Prod.mk.inj (Option.some.inj h)
      rw [List.append_cancel_right hrest]
    | case4 c cs hescape hc ih =>
      have hescape' (tail ds : List Char) (hc : c = '\\') : cs ++ ')' :: tail ≠ '/' :: ds := by
        cases cs with
        | nil => simp
        | cons d cs =>
          rw [List.cons_append]
          exact fun heq => hescape cs hc (by rw [(List.cons.inj heq).1])
      simp only [List.cons_append, patternContent?_of_ne hc (hescape' _),
        Option.map_eq_some_iff] at h ⊢
      obtain ⟨⟨content, rest⟩, hcs, rfl, rfl⟩ := h
      exact ⟨(content, _), ih _ hcs, rfl⟩

/-- Reads content after its opening character. -/
theorem ClosesBefore.carries {content? : List Char → Option (List Char × List Char)}
    (h : ClosesBefore content?) {r : Read α} {f : List Char → α}
    (hr : ∀ cs a left, r cs = .ok (a, left) ↔
      ∃ content, content? cs.tail = some (content, left) ∧ f content = a) : Carries n r r where
  suffix cs left a ha := by
    obtain ⟨content, hcontent, -⟩ := (hr ..).mp ha
    exact ((h.suffix hcontent).trans (List.tail_suffix _)).trans (List.tail_suffix cs)
  reads cs left tail a _ ha tail' := by
    obtain ⟨content, hcontent, rfl⟩ := (hr ..).mp ha
    cases cs with
    | nil =>
      have hsuffix := (h.suffix hcontent).trans (List.tail_suffix tail)
      exact absurd hsuffix not_suffix_of_paren
    | cons c cs => exact (hr ..).mpr ⟨content, h.reads hcontent tail', rfl⟩

namespace Carries

theorem quoted (quote : Char) : Carries n (Read.quoted quote) (Read.quoted quote) := by
  refine (closesBefore_quotedContent? quote).carries (f := String.ofList) fun cs a left => ?_
  rw [Read.quoted]
  rcases quotedContent? quote cs.tail with _ | ⟨content, rest⟩ <;> simp [and_comm]

/-- Reads the inside of a regular expression. -/
def patternBody : Read (List Char) := fun cs =>
  match patternContent? cs.tail with
  | some (content, rest) => .ok (content, rest)
  | none => .error ⟨.openPattern, 0⟩

theorem patternBody_carries : Carries n patternBody patternBody := by
  refine closesBefore_patternContent?.carries (f := id) fun cs a left => ?_
  rw [patternBody]
  rcases patternContent? cs.tail with _ | ⟨content, rest⟩ <;> simp

theorem pattern_eq : Read.pattern = (do
    let content ← patternBody
    let flags ← Read.takeWhile fun c => c = 'i' || c = 'm' || c = 's' || c = 'x'
    match Pattern.parse? (withFlags flags content) with
    | some p => return .pattern p
    | none => Read.fail .badPattern) := by
  funext cs
  rw [Read.pattern, bind_eq_of_ok (get_eq cs)]
  cases hbody : patternContent? cs.tail with
  | none =>
    have hfail : patternBody cs = .error ⟨.openPattern, 0⟩ := by rw [patternBody, hbody]
    change _ = (patternBody cs >>= _)
    rw [hfail]
    rfl
  | some p =>
    have hread : patternBody cs = .ok p := by rw [patternBody, hbody]
    rw [bind_eq_of_ok hread]
    rfl

theorem pattern : Carries n Read.pattern Read.pattern := by
  rw [pattern_eq]
  refine .bind patternBody_carries fun content => .bind (.takeWhile _) fun flags => ?_
  split
  · exact .pure _
  · exact .fail _

/-! ### Steps -/

theorem integer? (cs : List Char) : Carries n (Read.integer? cs) (Read.integer? cs) := by
  unfold Read.integer?
  dsimp only
  refine .ite (.pure _) ?_
  split
  · exact .pure _
  · exact .fail _

theorem integer (cs : List Char) : Carries n (Read.integer cs) (Read.integer cs) := by
  refine .bind (.integer? cs) fun i? => ?_
  cases i? with
  | none => exact .fail _
  | some i => exact .pure i

theorem integers : (texts : List (List Char)) →
    Carries n (texts.mapM Read.integer) (texts.mapM Read.integer)
  | [] => by
      rw [List.mapM_nil]
      exact .pure []
  | cs :: texts => by
      rw [List.mapM_cons]
      exact .bind (.integer cs) fun i => .bind (integers texts) fun is => .pure _

theorem numbers (content : List Char) :
    Carries n (Read.numbers content) (Read.numbers content) := by
  unfold Read.numbers
  split
  · exact .bind (.integer? _) fun _ => .bind (.integer? _) fun _ => .pure _
  · refine .bind (.integers _) fun is => ?_
    split <;> exact .pure _

theorem moreNames : {limit limit' : Nat} → limit ≤ limit' →
    Carries limit (Read.moreNames limit) (Read.moreNames limit')
  | 0, _, _ => .of_suffix fun cs left a h => (pure (n := 0) []).suffix h
  | limit + 1, limit' + 1, h => by
      refine .bind .skipBlanks fun _ => .bind .peek? fun c? => .ite ?_ (.pure [])
      refine .skip_bind (.bind .skipBlanks fun _ => .bind .peek? fun c? => ?_)
      cases c? with
      | none => exact .fail _
      | some c =>
        exact .ite (.bind (.quoted c) fun name =>
          .bind (moreNames (Nat.le_of_succ_le_succ h)) fun names => .pure _) (.fail _)

theorem closing (s : Selector) : Carries n (Read.closing s) (Read.closing s) :=
  .bind .skipBlanks fun _ => .bind (.char ']') fun _ => .pure s

variable {filter filter' : Read Filter}

theorem bracket {limit limit' : Nat} (hf : Carries limit filter filter') (h : limit ≤ limit') :
    Carries limit (Read.bracket limit filter) (Read.bracket limit' filter') := by
  refine .bind .skipBlanks fun _ => .bind .peek? fun c? => ?_
  split
  · exact .skip_bind' (closing .wildcard)
  · exact .skip_bind' (.bind .skipBlanks fun _ => .bind (.char '(') fun _ => .bind hf fun f =>
      .bind .skipBlanks fun _ => .bind (.char ')') fun _ => closing (.filter f))
  · refine .ite (.bind (.quoted _) fun name => .bind (.moreNames h) fun names => ?_)
      (.bind (.takeWhile _) fun content => .bind (.numbers _) fun s => closing s)
    split <;> exact closing _
  · exact .bind (.numbers []) fun s => closing s

theorem function (inFilter : Bool) (name : String) :
    Carries n (Read.function inFilter name) (Read.function inFilter name) := by
  refine .skip_bind' (.bind .skipBlanks fun _ => .bind (.char ')') fun _ => ?_)
  split
  · exact .fail _
  · exact .bind .peek? fun c? => .ite (.pure _) (.fail _)

theorem steps (inFilter : Bool) (hf : Carries n filter filter') : {limit limit' : Nat} →
    limit ≤ n + 1 → limit ≤ limit' →
      Carries limit (Read.steps inFilter filter limit) (Read.steps inFilter filter' limit')
  | 0, _, _, _ => .of_suffix fun cs left a h => (pure (n := 0) ([], none)).suffix h
  | limit + 1, limit' + 1, hn, h => by
      have hn := Nat.le_of_succ_le_succ hn
      have h := Nat.le_of_succ_le_succ h
      have hbracket := bracket (hf.mono hn) h
      have hnext (s : Step) := Carries.bind (steps inFilter hf (Nat.le_succ_of_le hn) h) fun p =>
        Carries.pure (n := limit) (s :: p.1, p.2)
      refine .bind .peek? fun c? => ?_
      split
      · refine .skip_bind (.bind (.sign (by decide) (by decide)) fun deep => ?_)
        refine .bind .peek? fun d? => ?_
        split
        · exact .skip_bind' (hnext _)
        · refine .ite (.skip_bind' (.bind hbracket fun s => hnext _)) ?_
          refine .bind .name fun name => .ite (.fail _) (.bind .peek? fun e? => .ite ?_ (hnext _))
          exact .bind (.function inFilter name) fun f => .pure _
      · exact .skip_bind (.bind hbracket fun s => hnext _)
      · exact .pure _

theorem route (inFilter : Bool) (hf : Carries n filter filter') {limit limit' : Nat}
    (hn : limit ≤ n + 1) (h : limit ≤ limit') :
    Carries limit (Read.route inFilter filter limit) (Read.route inFilter filter' limit') :=
  .bind (.steps inFilter hf hn h) fun _ => .pure _

/-! ### Filters -/

theorem number : Carries n Read.number Read.number := by
  refine .bind (.sign (by decide) (by decide)) fun minus => .bind (.takeWhile _) fun cs => ?_
  dsimp only
  split
  · exact .ite (.pure _) (.fail _)
  · exact .fail _

theorem constant : Carries n Read.constant Read.constant := by
  refine .bind .name fun word => ?_
  split
  · exact .pure _
  · exact .pure _
  · exact .pure _
  · exact .fail _

theorem operand (hf : Carries n filter filter') {limit limit' : Nat} (hn : limit ≤ n + 1)
    (h : limit ≤ limit') :
    Carries limit (Read.operand filter limit) (Read.operand filter' limit') := by
  have hroute := route true hf hn h
  refine .bind .skipBlanks fun _ => .bind .peek? fun c? => ?_
  split
  · exact .fail _
  · exact .skip_bind' (.bind hroute fun r => .pure _)
  · exact .skip_bind' (.bind hroute fun r => .pure _)
  · exact .pattern
  · exact .ite (.bind (.quoted _) fun s => .pure _) (.ite .number .constant)

theorem comparison? : (signs : List (List Char × Option CompareOp)) →
    (∀ s ∈ signs, ')' ∉ s.1 ∧ s.1 ≠ []) →
      Carries n (Read.comparison? signs) (Read.comparison? signs)
  | [], _ => .pure none
  | (s, op) :: signs, h => by
      obtain ⟨hs, hsigns⟩ := List.forall_mem_cons.mp h
      exact .bind (.sign hs.1 hs.2) fun b => .ite (.pure _) (comparison? signs hsigns)

theorem comparison (hf : Carries n filter filter') {limit limit' : Nat} (hn : limit ≤ n + 1)
    (h : limit ≤ limit') :
    Carries limit (Read.comparison filter limit) (Read.comparison filter' limit') := by
  have hoperand := operand hf hn h
  refine .bind hoperand fun left => .bind .skipBlanks fun _ =>
    .bind (.comparison? comparisons (by decide)) fun op? => ?_
  split
  · split
    · exact .pure _
    · exact .fail _
  · exact .bind hoperand fun right => .pure _
  · refine .bind hoperand fun right => ?_
    split
    · exact .pure _
    · exact .fail _

/-- What a condition begins with. -/
inductive Opening where
  /-- A sign of negation. -/
  | bang
  /-- A parenthesis. -/
  | paren
  /-- An operand. -/
  | operand

/-- What the condition at the beginning of a text begins with. -/
def opening : List Char → Opening
  | '!' :: '=' :: _ => .operand
  | '!' :: _ => .bang
  | '(' :: _ => .paren
  | _ => .operand

theorem opening_before_paren (cs tail tail' : List Char) :
    opening (cs ++ ')' :: tail) = opening (cs ++ ')' :: tail') := by
  match cs with
  | [] => rfl
  | [c] => by_cases hbang : c = '!' <;> by_cases hparen : c = '(' <;> simp_all [opening]
  | c :: d :: cs =>
    by_cases hbang : c = '!' <;> by_cases heq : d = '=' <;> by_cases hparen : c = '(' <;>
      simp_all [opening]

theorem negations_eq (filter : Read Filter) (size limit : Nat) :
    Read.negations filter size (limit + 1) = (do
      Read.skipBlanks
      match ← (fun cs => .ok (opening cs, cs) : Read Opening) with
      | .operand => Read.comparison filter size
      | .bang =>
        Read.skip 1
        return .not (← Read.negations filter size limit)
      | .paren =>
        Read.skip 1
        let f ← filter
        Read.skipBlanks
        Read.char ')'
        return f) := by
  funext cs
  have hskip : Read.skipBlanks cs = .ok ((), cs.dropWhile isBlank) := rfl
  rw [Read.negations, bind_eq_of_ok hskip, bind_eq_of_ok hskip, bind_eq_of_ok (get_eq _)]
  generalize cs.dropWhile isBlank = ds
  change _ = (match opening ds with
      | .operand => Read.comparison filter size
      | .bang => _
      | .paren => _ : Read Filter) ds
  refine congrFun ?_ ds
  split <;> simp_all [opening]

theorem negations (hf : Carries n filter filter') {size size' : Nat} (hn : size ≤ n + 1)
    (h : size ≤ size') : {limit limit' : Nat} → limit ≤ size → limit ≤ limit' →
      Carries limit (Read.negations filter size limit) (Read.negations filter' size' limit')
  | 0, _, _, _ => .of_suffix fun cs left a ha => ((comparison hf hn h).suffix ha)
  | limit + 1, limit' + 1, hlimit, hlimit' => by
      have hcomparison := (comparison hf hn h).mono hlimit
      have hrest := negations hf hn h (Nat.le_of_succ_le hlimit) (Nat.le_of_succ_le_succ hlimit')
      have hgroup := hf.mono (Nat.le_of_succ_le_succ (hlimit.trans hn))
      rw [negations_eq, negations_eq]
      refine .bind .skipBlanks fun _ => .bind (.look opening_before_paren) fun o => ?_
      cases o with
      | operand => exact hcomparison
      | bang => exact .skip_bind (.bind hrest fun f => .pure _)
      | paren =>
        exact .skip_bind (.bind hgroup fun f => .bind .skipBlanks fun _ =>
          .bind (.char ')') fun _ => .pure f)

theorem chain {operand operand' : Read Filter} {s : List Char}
    {join : Filter → Filter → Filter} (hs : ')' ∉ s) (hne : s ≠ [])
    (ho : Carries n operand operand') : {limit limit' : Nat} → limit ≤ n → limit ≤ limit' →
      (left : Filter) → Carries limit (Read.chain operand s join limit left)
        (Read.chain operand' s join limit' left)
  | 0, _, _, _, left => .of_suffix fun cs rest a ha => (pure (n := 0) left).suffix ha
  | _ + 1, _ + 1, hn, h, left => by
      have hn := Nat.le_of_succ_le hn
      refine .bind .skipBlanks fun _ => .sign_bind hs hne ?_ (.pure left)
      exact .bind (ho.mono hn) fun f => chain hs hne ho hn (Nat.le_of_succ_le_succ h) _

theorem conjunction (hf : Carries n filter filter') {limit limit' : Nat} (hn : limit ≤ n + 1)
    (h : limit ≤ limit') :
    Carries limit (Read.conjunction filter limit) (Read.conjunction filter' limit') := by
  have hoperand := negations hf hn h (Nat.le_refl limit) h
  exact .bind hoperand fun f => .chain (by decide) (by decide) hoperand (Nat.le_refl limit) h f

theorem disjunction (hf : Carries n filter filter') {limit limit' : Nat} (hn : limit ≤ n + 1)
    (h : limit ≤ limit') :
    Carries limit (Read.disjunction filter limit) (Read.disjunction filter' limit') := by
  have hoperand := conjunction hf hn h
  exact .bind hoperand fun f => .chain (by decide) (by decide) hoperand (Nat.le_refl limit) h f

end Carries

/-- What is read before a parenthesis as a filter is read before it under every greater limit,
whatever follows the parenthesis. -/
theorem filterUpTo_carries : {limit limit' : Nat} → limit ≤ limit' →
    Carries limit (filterUpTo limit) (filterUpTo limit')
  | 0, _, _ => .of_suffix fun _ _ _ h => nomatch h
  | _ + 1, _ + 1, h =>
      .disjunction (filterUpTo_carries (Nat.le_of_succ_le_succ h)) (Nat.le_refl _) h

end GatewayMapping.JsonPath.Read
