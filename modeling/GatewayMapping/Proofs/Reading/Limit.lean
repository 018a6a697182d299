import GatewayMapping.Proofs.Reading.Progress

/-!
# Readers do not depend on the limit

Each loop of the grammar has a limit on its rounds, and `Inner.upTo` a limit on how deep syntax
lies inside syntax. Every round and every bracket takes a character, so with a limit that is no
less than the number of characters left none of them is reached: two limits as large as that
give the same result, value or fault (`Inner.upTo_agree`).

## Main definitions

* `Read.AgreeWithin`: two readers do the same where at most so many characters are left.
* `Inner.Agree`: the same for the readers of expressions and blocks.

## Main results

* `Inner.upTo_agree`: readers with sufficient limits agree.
-/

namespace GatewayMapping.Template

variable {α β : Type}

namespace Read

/-! ### Agreement on short texts -/

/-- The readers give the same result where at most `n` characters are left. -/
def AgreeWithin (n : Nat) (r r' : Read α) : Prop :=
  ∀ cur : Cursor, cur.rest.length ≤ n → r cur = r' cur

namespace AgreeWithin

variable {n m : Nat}

theorem refl (r : Read α) : AgreeWithin n r r := fun _ _ => rfl

theorem mono {r r' : Read α} (h : AgreeWithin n r r') (hmn : m ≤ n) : AgreeWithin m r r' :=
  fun cur hcur => h cur (Nat.le_trans hcur hmn)

/-- Sequences agree if their first parts do, and their second parts after each result of them. -/
theorem bind_of_result {x x' : Read α} {f f' : α → Read β} (hx : AgreeWithin n x x')
    (hf : ∀ cur a cur', cur.rest.length ≤ n → x cur = .ok (a, cur') → f a cur' = f' a cur') :
    AgreeWithin n (x >>= f) (x' >>= f') := by
  intro cur hcur
  change (x cur >>= fun p => f p.1 p.2) = (x' cur >>= fun p => f' p.1 p.2)
  rw [← hx cur hcur]
  cases hxa : x cur with
  | error e => rfl
  | ok p => exact hf cur p.1 p.2 hcur hxa

theorem bind {x x' : Read α} {f f' : α → Read β} (hx : AgreeWithin n x x') (hs : Shrinks x)
    (hf : ∀ a, AgreeWithin n (f a) (f' a)) : AgreeWithin n (x >>= f) (x' >>= f') :=
  hx.bind_of_result fun _ a cur' hcur hxa => hf a cur' (Nat.le_trans (hs.length_le hxa) hcur)

theorem bind_left (x : Read α) {f f' : α → Read β} (hs : Shrinks x)
    (hf : ∀ a, AgreeWithin n (f a) (f' a)) : AgreeWithin n (x >>= f) (x >>= f') :=
  (refl x).bind hs hf

/-- After a reader that takes a character, one character less may be left. -/
theorem bind_takes (x : Read α) {f f' : α → Read β} (hx : Takes x)
    (hf : ∀ a, AgreeWithin n (f a) (f' a)) : AgreeWithin (n + 1) (x >>= f) (x >>= f') := by
  refine (refl x).bind_of_result fun cur a cur' hcur hxa => hf a cur' ?_
  have := hx cur a cur' hxa trivial
  omega

theorem bind_skip {k : Nat} (hk : k ≠ 0) {f f' : Unit → Read β}
    (hf : ∀ a, AgreeWithin n (f a) (f' a)) :
    AgreeWithin (n + 1) (skip k >>= f) (skip k >>= f') :=
  bind_takes _ (.skip hk) hf

theorem ite {c : Prop} [Decidable c] {x x' y y' : Read α} (hx : AgreeWithin n x x')
    (hy : AgreeWithin n y y') :
    AgreeWithin n (if c then x else y) (if c then x' else y') := by
  split
  · exact hx
  · exact hy

end AgreeWithin

/-! ### Sequences and quotes -/

variable {n : Nat} {item item' : Read α}

theorem itemsAfter_agree (hs : Shrinks item) (h : AgreeWithin n item item') (close : Char)
    (expected : Expected) : ∀ {m limit limit' : Nat}, m ≤ n → m ≤ limit → m ≤ limit' →
      AgreeWithin m (itemsAfter item close expected limit)
        (itemsAfter item' close expected limit')
  | 0, limit, limit', _, _, _ => by
      -- Where nothing is left, all limits give one fault.
      have hnone : ∀ (item : Read α) limit cur, cur.rest = [] →
          itemsAfter item close expected limit cur = unexpected expected cur := by
        intro item limit cur hcur
        obtain ⟨rest, position, indent⟩ := cur
        obtain rfl : rest = [] := hcur
        cases limit <;> rfl
      intro cur hcur
      have hrest := List.eq_nil_of_length_eq_zero (Nat.le_zero.mp hcur)
      rw [hnone item limit cur hrest, hnone item' limit' cur hrest]
  | m + 1, limit + 1, limit' + 1, hm, hl, hl' => by
      refine .bind_left _ (.skipWhile _) fun _ => .bind_left _ .peek? fun c? => ?_
      cases c? with
      | none => exact .refl _
      | some c =>
        refine .ite (.bind_skip Nat.one_ne_zero fun _ => ?_) (.refl _)
        have hm : m ≤ n := Nat.le_of_succ_le hm
        exact (h.mono hm).bind hs fun _ =>
          (itemsAfter_agree hs h close expected hm (Nat.le_of_succ_le_succ hl)
            (Nat.le_of_succ_le_succ hl')).bind (.itemsAfter hs _ _ _) fun _ => .refl _

theorem items_agree (hs : Shrinks item) (h : AgreeWithin n item item') (close : Char)
    (expected : Expected) {limit limit' : Nat} (hl : n ≤ limit) (hl' : n ≤ limit') :
    AgreeWithin n (items item close expected limit) (items item' close expected limit') := by
  refine .bind_left _ (.skipWhile _) fun _ => .bind_left _ .peek? fun c? => .ite (.refl _) ?_
  exact h.bind hs fun _ =>
    (itemsAfter_agree hs h close expected (Nat.le_refl n) hl hl').bind (.itemsAfter hs _ _ _)
      fun _ => .refl _

/-- The content of quotes with the closing quote is not longer than what it is taken from. -/
theorem length_of_quotedContent? {quote : Char} {cs content : List Char} {k : Nat}
    (h : quotedContent? quote cs = some (content, k)) : content.length < k ∧ k ≤ cs.length := by
  induction cs using quotedContent?.induct quote generalizing content k with
  | case1 => cases h
  | case2 =>
    rw [quotedContent?, if_pos rfl] at h
    cases h
    exact ⟨Nat.zero_lt_one, Nat.le_refl 1⟩
  | case3 c hc =>
    rw [quotedContent?, if_neg hc] at h
    cases h
  | case4 cs ih =>
    rw [quotedContent?, if_pos rfl, if_pos rfl, Option.map_eq_some_iff] at h
    obtain ⟨⟨rest, j⟩, hrest, heq⟩ := h
    obtain ⟨rfl, rfl⟩ := Prod.mk.inj heq
    have ⟨hcontent, hlength⟩ := ih hrest
    simp only [List.length_cons]
    omega
  | case5 d cs hd =>
    rw [quotedContent?, if_pos rfl, if_neg hd] at h
    cases h
    exact ⟨Nat.zero_lt_one, Nat.succ_le_succ (Nat.zero_le _)⟩
  | case6 c d cs hc ih =>
    rw [quotedContent?, if_neg hc, Option.map_eq_some_iff] at h
    obtain ⟨⟨rest, j⟩, hrest, heq⟩ := h
    obtain ⟨rfl, rfl⟩ := Prod.mk.inj heq
    have ⟨hcontent, hlength⟩ := ih hrest
    simp only [List.length_cons] at hlength ⊢
    omega

/-- The content of quotes is shorter than the text that begins with them. -/
theorem length_of_quoted {quote : Char} {cur cur' : Cursor} {content : List Char}
    (h : quoted quote cur = .ok (content, cur')) : content.length ≤ cur.rest.length - 1 := by
  obtain ⟨cs, cur₁, hrest, h⟩ := bind_eq_ok_iff.mp h
  cases hrest
  cases hq : quotedContent? quote cur.rest.tail with
  | none =>
    rw [hq] at h
    cases h
  | some p =>
    rw [hq] at h
    cases h
    have ⟨hcontent, hlength⟩ := length_of_quotedContent? hq
    rw [List.length_tail] at hlength
    omega

end Read

/-- Two pairs of readers that agree where at most `n` characters are left. -/
structure Inner.Agree (n : Nat) (inner inner' : Inner) : Prop where
  expr : Read.AgreeWithin n inner.expr inner'.expr
  block : Read.AgreeWithin n inner.block inner'.block
  le_limit : n ≤ inner.limit
  le_limit' : n ≤ inner'.limit
  shrinks : inner.Shrinks
  /-- A block that does not end with the text takes a character. -/
  takes : ∀ cur b cur', inner.block cur = .ok (b, cur') → b.ending ≠ .endOfText →
    cur'.rest.length < cur.rest.length

namespace Grammar

open Read (AgreeWithin Shrinks)

/-! ### Agreement of expressions -/

section

variable {n : Nat} {inner inner' : Inner} (h : inner.Agree n inner')
include h

theorem doubleQuoted_agree : AgreeWithin (n + 1) (doubleQuoted inner) (doubleQuoted inner') := by
  refine .bind_left _ .here fun base => ?_
  refine .bind_of_result (.refl _) fun cur content cur' hcur hcontent => ?_
  have hlength := Read.length_of_quoted hcontent
  have hblock := h.block (.ofChars content (base.after '"'))
    (by change content.length ≤ n; omega)
  split
  · rw [StateT.run, StateT.run, hblock]
  · rfl

theorem list_agree : AgreeWithin (n + 1) (list inner) (list inner') := by
  refine .bind_skip Nat.one_ne_zero fun _ => .bind_left _ (.skipWhile _) fun _ =>
    .bind_left _ .peek? fun _ => .ite (.refl _) ?_
  refine h.expr.bind h.shrinks.expr fun _ => .bind_left _ (.skipWhile _) fun _ =>
    .bind_left _ (.sign _) fun _ => .ite ?_ ?_
  · exact h.expr.bind h.shrinks.expr fun _ => .refl _
  · exact (Read.itemsAfter_agree h.shrinks.expr h.expr _ _ (Nat.le_refl n) h.le_limit
      h.le_limit').bind (.itemsAfter h.shrinks.expr _ _ _) fun _ => .refl _

theorem entry_agree : AgreeWithin n (entry inner) (entry inner') :=
  h.expr.bind h.shrinks.expr fun _ => .bind_left _ (.skipWhile _) fun _ =>
    .bind_left _ (.char _ _) fun _ => h.expr.bind h.shrinks.expr fun _ => .refl _

theorem map_agree : AgreeWithin (n + 1) (map inner) (map inner') :=
  .bind_skip Nat.one_ne_zero fun _ =>
    (Read.items_agree (entry_shrinks h.shrinks) (entry_agree h) _ _ h.le_limit h.le_limit').bind
      (.items (entry_shrinks h.shrinks) _ _ _) fun _ => .refl _

theorem segments_agree : ∀ {m limit limit' : Nat}, m ≤ n → m < limit → m < limit' →
    AgreeWithin m (segments inner limit) (segments inner' limit')
  | 0, limit + 1, limit' + 1, _, _, _ => by
      intro cur hcur
      have hrest := List.eq_nil_of_length_eq_zero (Nat.le_zero.mp hcur)
      rw [segments_of_nil hrest, segments_of_nil hrest]
  | m + 1, limit + 1, limit' + 1, hm, hl, hl' => by
      have hle : m ≤ n := Nat.le_of_succ_le hm
      have hmore (s : Segment) :
          AgreeWithin m (return s :: (← segments inner limit) : Read (List Segment))
            (return s :: (← segments inner' limit')) :=
        (segments_agree hle (Nat.lt_of_succ_lt_succ hl) (Nat.lt_of_succ_lt_succ hl')).bind
          (segments_shrinks h.shrinks limit) fun _ => .refl _
      refine .bind_left _ .rest fun cs => ?_
      split
      · refine .ite (.bind_skip Nat.one_ne_zero fun _ => .bind_left _ .name fun _ =>
          .bind_left _ .peek? fun _ => .ite ?_ (hmore _)) (.refl _)
        refine .bind_left _ (.skip 1) fun _ => ?_
        exact ((Read.items_agree h.shrinks.expr h.expr _ _ h.le_limit h.le_limit').mono hle).bind
          (.items h.shrinks.expr _ _ _) fun _ => hmore _
      · exact .bind_skip Nat.one_ne_zero fun _ => (h.expr.mono hle).bind h.shrinks.expr fun _ =>
          .bind_left _ (.skipWhile _) fun _ => .bind_left _ (.char _ _) fun _ => hmore _
      · exact .refl _

theorem referenceAfter_agree (s : Sigil) :
    AgreeWithin (n + 1) (referenceAfter inner s) (referenceAfter inner' s) := by
  have hlength : s.length ≠ 0 := by rw [Sigil.length]; omega
  refine .bind_left _ .get fun _ => .bind_skip hlength fun _ => .bind_left _ .name fun _ => ?_
  exact (segments_agree h (Nat.le_refl n) (Nat.lt_succ_of_le h.le_limit)
    (Nat.lt_succ_of_le h.le_limit')).bind (segments_shrinks h.shrinks _) fun _ => .refl _

theorem reference?_agree : AgreeWithin (n + 1) (reference? inner) (reference? inner') := by
  refine .bind_left _ .rest fun cs => ?_
  cases sigil? cs.tail with
  | some s =>
    exact (referenceAfter_agree h s).bind (referenceAfter_shrinks h.shrinks s) fun _ => .refl _
  | none => exact .refl _

theorem reference_agree : AgreeWithin (n + 1) (reference inner) (reference inner') :=
  .bind_left _ .peek? fun _ => .ite
    ((reference?_agree h).bind (reference?_shrinks h.shrinks) fun _ => .refl _) (.refl _)

theorem primary_agree : AgreeWithin (n + 1) (primary inner) (primary inner') := by
  refine .bind_left _ (.skipWhile _) fun _ => .bind_left _ .peek? fun c? => ?_
  split
  · exact .refl _
  · exact .bind_skip Nat.one_ne_zero fun _ => h.expr.bind h.shrinks.expr fun _ => .refl _
  · exact .refl _
  · exact doubleQuoted_agree h
  · exact list_agree h
  · exact map_agree h
  · exact (reference_agree h).bind (reference_shrinks h.shrinks) fun _ => .refl _
  · exact .refl _

theorem unary_agree : ∀ {m limit limit' : Nat}, m ≤ n + 1 → m ≤ limit → m ≤ limit' →
    AgreeWithin m (unary inner limit) (unary inner' limit')
  | 0, limit, limit', _, _, _ => by
      intro cur hcur
      have hrest := List.eq_nil_of_length_eq_zero (Nat.le_zero.mp hcur)
      rw [unary_of_nil hrest, unary_of_nil hrest]
  | m + 1, limit + 1, limit' + 1, hm, hl, hl' => by
      refine .bind_left _ (.skipWhile _) fun _ => .bind_left _ .here fun _ =>
        .bind_of_result (.refl _) fun cur op? cur' hcur hop => ?_
      have hle := unaryOp?_shrinks.length_le hop
      cases op? with
      | none => exact (primary_agree h).mono hm cur' (Nat.le_trans hle hcur)
      | some op =>
        have htakes := unaryOp?_takes cur _ cur' hop nofun
        exact (unary_agree (Nat.le_of_succ_le hm) (Nat.le_of_succ_le_succ hl)
          (Nat.le_of_succ_le_succ hl')).bind (unary_shrinks h.shrinks limit) (fun _ => .refl _)
            cur' (by omega)

omit h in
theorem chain_agree {operand operand' : Read Expr} (hs : Shrinks operand)
    (ho : AgreeWithin n operand operand') (ops : List BinaryOp) :
    ∀ {m limit limit' : Nat}, m ≤ n → m ≤ limit → m ≤ limit' → (left : Expr) →
      AgreeWithin m (chain operand ops limit left) (chain operand' ops limit' left)
  | 0, limit, limit', _, _, _, left => by
      intro cur hcur
      have hrest := List.eq_nil_of_length_eq_zero (Nat.le_zero.mp hcur)
      rw [chain_of_nil hrest, chain_of_nil hrest]
  | m + 1, limit + 1, limit' + 1, hm, hl, hl', left => by
      refine .bind_left _ (.skipWhile _) fun _ => .bind_left _ .here fun _ =>
        .bind_of_result (.refl _) fun cur op? cur' hcur hop => ?_
      cases op? with
      | none => rfl
      | some op =>
        have htakes := binaryOp?_takes ops cur _ cur' hop nofun
        exact (ho.mono (Nat.le_of_succ_le hm)).bind hs (fun _ =>
          chain_agree hs ho ops (Nat.le_of_succ_le hm) (Nat.le_of_succ_le_succ hl)
            (Nat.le_of_succ_le_succ hl') _) cur' (by omega)

theorem levels_agree {limit limit' : Nat} (hl : n + 1 ≤ limit) (hl' : n + 1 ≤ limit') :
    (levels : List (List BinaryOp)) →
      AgreeWithin (n + 1) (levels.foldr (level limit) (unary inner limit))
        (levels.foldr (level limit') (unary inner' limit'))
  | [] => unary_agree h (Nat.le_refl _) hl hl'
  | ops :: levels => by
      have ho := levels_agree hl hl' levels
      have hs := levels_shrink h.shrinks limit levels
      exact ho.bind hs fun left => chain_agree hs ho ops (Nat.le_refl _) hl hl' left

theorem expr_agree : AgreeWithin (n + 1) (expr inner) (expr inner') :=
  levels_agree h (Nat.succ_le_succ h.le_limit) (Nat.succ_le_succ h.le_limit') levels

/-! ### Agreement of blocks -/

theorem argument_agree (d : Directive) : AgreeWithin n (argument inner d) (argument inner' d) :=
  .bind_left _ (openParen_shrinks d) fun _ => h.expr.bind h.shrinks.expr fun _ => .refl _

theorem assignment_agree : AgreeWithin n (assignment inner) (assignment inner') := by
  refine .bind_left _ (openParen_shrinks _) fun _ => .bind_left _ (.skipWhile _) fun _ =>
    ((reference_agree h).mono (Nat.le_succ n)).bind (reference_shrinks h.shrinks) fun _ =>
      .bind_left _ (.skipWhile _) fun _ => .bind_left _ .rest fun cs => ?_
  split
  · exact .refl _
  · exact .bind_left _ (.skip 1) fun _ => h.expr.bind h.shrinks.expr fun _ => .refl _
  · exact .refl _

theorem loopHead_agree : AgreeWithin n (loopHead inner) (loopHead inner') := by
  refine .bind_left _ (openParen_shrinks _) fun _ => .bind_left _ (.skipWhile _) fun _ =>
    ((reference_agree h).mono (Nat.le_succ n)).bind (reference_shrinks h.shrinks) fun _ =>
      .ite ?_ (.refl _)
  exact .bind_left _ (.skipWhile _) fun _ => .bind_left _ (.wholeWord _) fun _ =>
    .ite (h.expr.bind h.shrinks.expr fun _ => .refl _) (.refl _)

theorem branches_agree (opened : Position) : ∀ {m limit limit' : Nat}, m ≤ n → m < limit →
    m < limit' → (condition : Expr) →
      AgreeWithin m (branches inner opened limit condition)
        (branches inner' opened limit' condition)
  | m, limit + 1, limit' + 1, hm, hl, hl', condition => by
      refine (h.block.mono hm).bind_of_result fun cur body cur' hcur hbody => ?_
      have hle := h.shrinks.block.length_le hbody
      have hshorter := h.takes cur body cur' hbody
      obtain ⟨nodes, ending⟩ := body
      cases ending with
      | endOfText => rfl
      | finish position => rfl
      | elseIf next position =>
        have htakes := hshorter nofun
        obtain ⟨k, rfl⟩ := Nat.exists_eq_add_one_of_ne_zero (by omega : m ≠ 0)
        exact (branches_agree opened (Nat.le_of_succ_le hm) (Nat.lt_of_succ_lt_succ hl)
          (Nat.lt_of_succ_lt_succ hl') next).bind (branches_shrinks h.shrinks opened limit next)
            (fun _ => .refl _) cur' (by omega)
      | otherwise position =>
        exact (h.block.mono hm).bind h.shrinks.block (fun _ => .refl _) cur'
          (Nat.le_trans hle hcur)

theorem loopBody_agree (opened : Position) :
    AgreeWithin n (loopBody inner opened) (loopBody inner' opened) :=
  h.block.bind h.shrinks.block fun _ => .refl _

theorem directive_agree (position : Position) (indent : Option Nat) (d : Draft) :
    (word : Directive) → AgreeWithin n (directive inner position indent d word)
      (directive inner' position indent d word)
  | .assign => (assignment_agree h).bind (assignment_shrinks h.shrinks) fun _ => .refl _
  | .ifThen =>
      (argument_agree h _).bind (argument_shrinks h.shrinks _) fun condition =>
        .bind_left _ (gobble_shrinks _ _) fun _ =>
          (branches_agree h position (Nat.le_refl n) (Nat.lt_succ_of_le h.le_limit)
            (Nat.lt_succ_of_le h.le_limit') condition).bind
              (branches_shrinks h.shrinks position _ condition) fun _ => .refl _
  | .elseIf => (argument_agree h _).bind (argument_shrinks h.shrinks _) fun _ => .refl _
  | .otherwise => .refl _
  | .finish => .refl _
  | .forEach =>
      (loopHead_agree h).bind (loopHead_shrinks h.shrinks) fun _ =>
        .bind_left _ (gobble_shrinks _ _) fun _ =>
          (loopBody_agree h position).bind (loopBody_shrinks h.shrinks position) fun _ => .refl _
  | .leave => .refl _
  | .stop => .refl _
  | .parse => (argument_agree h _).bind (argument_shrinks h.shrinks _) fun _ => .refl _
  | .insert => (argument_agree h _).bind (argument_shrinks h.shrinks _) fun _ => .refl _

theorem hash_agree (d : Draft) : AgreeWithin (n + 1) (hash inner d) (hash inner' d) := by
  refine .bind_left _ .rest fun cs => ?_
  split
  · exact .refl _
  · exact .refl _
  · exact .refl _
  · split
    · exact .bind_left _ .get fun _ => .bind_skip (Nat.succ_ne_zero _) fun _ =>
        directive_agree h _ _ _ _
    · exact .refl _

theorem step_agree (d : Draft) : AgreeWithin (n + 1) (step inner d) (step inner' d) := by
  refine .bind_left _ .peek? fun c? => ?_
  split
  · exact .refl _
  · exact .refl _
  · exact (reference?_agree h).bind (reference?_shrinks h.shrinks) fun _ => .refl _
  · exact hash_agree h d
  · exact .refl _

theorem blockFrom_agree : ∀ {m limit limit' : Nat}, m ≤ n + 1 → m ≤ limit → m ≤ limit' →
    (d : Draft) → AgreeWithin m (blockFrom inner limit d) (blockFrom inner' limit' d)
  | 0, limit, limit', _, _, _, d => by
      intro cur hcur
      have hrest := List.eq_nil_of_length_eq_zero (Nat.le_zero.mp hcur)
      rw [blockFrom_of_nil hrest, blockFrom_of_nil hrest]
  | m + 1, limit + 1, limit' + 1, hm, hl, hl', d => by
      refine ((step_agree h d).mono hm).bind_of_result fun cur s cur' hcur hstep => ?_
      cases s with
      | done b => rfl
      | goOn d =>
        have htakes := step_takes h.shrinks _ cur _ cur' hstep trivial
        exact blockFrom_agree (Nat.le_of_succ_le hm) (Nat.le_of_succ_le_succ hl)
          (Nat.le_of_succ_le_succ hl') d cur' (by omega)

theorem block_agree : AgreeWithin (n + 1) (block inner) (block inner') :=
  blockFrom_agree h (Nat.le_refl _) (Nat.succ_le_succ h.le_limit) (Nat.succ_le_succ h.le_limit')
    .empty

end

end Grammar

/-- **Readers with sufficient limits agree.** Where at most `n` characters are left, the readers
of two limits that are no less than `n` give the same result. -/
theorem Inner.upTo_agree : ∀ {n limit limit' : Nat}, n ≤ limit → n ≤ limit' →
    (Inner.upTo limit).Agree n (Inner.upTo limit')
  | 0, limit, limit', hl, hl' => by
      have hexpr : ∀ limit cur, cur.rest = [] →
          (Inner.upTo limit).expr cur = Read.unexpected .expression cur
        | 0, _, _ => rfl
        | limit + 1, _, hcur => Grammar.levels_of_nil hcur _ _ _
      have hblock : ∀ limit cur, cur.rest = [] →
          (Inner.upTo limit).block cur = .ok (⟨[], .endOfText⟩, cur)
        | 0, _, _ => rfl
        | limit + 1, _, hcur => Grammar.blockFrom_of_nil hcur _ _ _
      refine ⟨fun cur hcur => ?_, fun cur hcur => ?_, Nat.zero_le _, Nat.zero_le _,
        Inner.upTo_shrinks limit, Inner.upTo_takes limit⟩
      · have hrest := List.eq_nil_of_length_eq_zero (Nat.le_zero.mp hcur)
        rw [hexpr limit cur hrest, hexpr limit' cur hrest]
      · have hrest := List.eq_nil_of_length_eq_zero (Nat.le_zero.mp hcur)
        rw [hblock limit cur hrest, hblock limit' cur hrest]
  | n + 1, limit + 1, limit' + 1, hl, hl' => by
      have h := upTo_agree (Nat.le_of_succ_le_succ hl) (Nat.le_of_succ_le_succ hl')
      exact ⟨Grammar.expr_agree h, Grammar.block_agree h, hl, hl', Inner.upTo_shrinks _,
        Inner.upTo_takes _⟩

end GatewayMapping.Template
