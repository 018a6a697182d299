import GatewayMapping.Proofs.Reading.Leftover

/-!
# Reading takes characters

Every round of a loop of the grammar takes a character: an operator does, each part of a block
does, and so does a block that does not end with the text. Where nothing is left, readers stop at
once (`Grammar.blockFrom_of_nil`, `Grammar.chain_of_nil`).

## Main definitions

* `Read.Takes`: a reader takes a character if one is left.
* `Read.TakesFor`, `Read.TakesAt`: it does so for some results, or where some character is next.
-/

namespace GatewayMapping.Template

variable {α β : Type}

namespace Read

/-- With such a result, the reader has taken a character if one was left. -/
def TakesFor (p : α → Prop) (r : Read α) : Prop :=
  ∀ cur a cur', r cur = .ok (a, cur') → p a → cur'.rest.length ≤ cur.rest.length - 1

/-- The reader takes a character if one is left. -/
abbrev Takes (r : Read α) : Prop := TakesFor (fun _ => True) r

theorem Shrinks.length_le {r : Read α} (h : Shrinks r) {cur cur' : Cursor} {a : α}
    (hr : r cur = .ok (a, cur')) : cur'.rest.length ≤ cur.rest.length :=
  (h cur a cur' hr).length_le

namespace TakesFor

variable {p q : α → Prop} {t : β → Prop}

theorem pure {a : α} (ha : ¬p a) : TakesFor p (pure a : Read α) := by
  rintro cur _ _ ⟨⟩ hp
  exact absurd hp ha

theorem skip {n : Nat} (hn : n ≠ 0) : Takes (skip n) := by
  rintro cur _ _ ⟨⟩ -
  rw [Cursor.rest_skip, List.length_drop]
  omega

theorem fail (fault : SyntaxFault) : TakesFor p (fail fault : Read α) := by
  rintro cur _ _ ⟨⟩

theorem bind_left {x : Read α} {f : α → Read β} (hx : Takes x) (hf : ∀ a, Shrinks (f a)) :
    TakesFor t (x >>= f) := by
  intro cur b cur'' h _
  obtain ⟨a, cur', hxa, hfb⟩ := bind_eq_ok_iff.mp h
  exact Nat.le_trans ((hf a).length_le hfb) (hx cur a cur' hxa trivial)

theorem bind_right {x : Read α} {f : α → Read β} (hx : Shrinks x)
    (hf : ∀ a, TakesFor t (f a)) : TakesFor t (x >>= f) := by
  intro cur b cur'' h hb
  obtain ⟨a, cur', hxa, hfb⟩ := bind_eq_ok_iff.mp h
  have hlength := hx.length_le hxa
  have := hf a cur' b cur'' hfb hb
  omega

theorem ite {c : Prop} [Decidable c] {x y : Read α} (hx : TakesFor p x) (hy : TakesFor p y) :
    TakesFor p (if c then x else y) := by
  split
  · exact hx
  · exact hy

/-- What is read where a token stands may follow it without taking a character. -/
theorem token {x : Read Bool} {y z : Read β} (hx : TakesFor (· = true) x) (hs : Shrinks x)
    (hy : Shrinks y) (hz : TakesFor t z) :
    TakesFor t (x >>= fun found => if found = true then y else z) := by
  intro cur b cur'' h hb
  obtain ⟨found, cur', hxa, h⟩ := bind_eq_ok_iff.mp h
  cases found with
  | true => exact Nat.le_trans (hy.length_le h) (hx cur true cur' hxa rfl)
  | false =>
    have hlength := hs.length_le hxa
    have := hz cur' b cur'' h hb
    omega

theorem option {x : Read (Option α)} {f : Option α → Read β} (hx : TakesFor (· ≠ none) x)
    (hs : Shrinks x) (hsome : ∀ a, Shrinks (f (some a))) (hnone : TakesFor t (f none)) :
    TakesFor t (x >>= f) := by
  intro cur b cur'' h hb
  obtain ⟨a?, cur', hxa, h⟩ := bind_eq_ok_iff.mp h
  cases a? with
  | some a => exact Nat.le_trans ((hsome a).length_le h) (hx cur _ cur' hxa nofun)
  | none =>
    have hlength := hs.length_le hxa
    have := hnone cur' b cur'' h hb
    omega

theorem sign {cs : List Char} (hcs : cs ≠ []) : TakesFor (· = true) (sign cs) :=
  bind_right .rest fun _ =>
    ite (bind_left (skip (mt List.eq_nil_of_length_eq_zero hcs)) fun _ => .pure true) (pure nofun)

theorem wholeWord {word : List Char} (hword : word ≠ []) :
    TakesFor (· = true) (wholeWord word) :=
  bind_right .rest fun _ =>
    ite (bind_left (skip (mt List.eq_nil_of_length_eq_zero hword)) fun _ => .pure true)
      (pure nofun)

end TakesFor

/-- The reader takes a character where `c` is the next one. -/
def TakesAt (c : Char) (r : Read α) : Prop :=
  ∀ cur a cur', cur.rest.head? = some c → r cur = .ok (a, cur') →
    cur'.rest.length ≤ cur.rest.length - 1

theorem TakesFor.takesAt {r : Read α} (h : Takes r) (c : Char) : TakesAt c r :=
  fun cur a cur' _ hr => h cur a cur' hr trivial

/-- After a look at the next character, nothing has to be taken where there is none. -/
theorem TakesFor.peek? {f : Option Char → Read β} (hnone : Shrinks (f none))
    (hsome : ∀ c, TakesAt c (f (some c))) : Takes (peek? >>= f) := by
  intro cur b cur' h _
  obtain ⟨_, _, ⟨⟩, h⟩ := bind_eq_ok_iff.mp h
  cases hrest : cur.rest with
  | nil =>
    rw [hrest] at h
    rw [← hrest]
    have := hnone.length_le h
    rw [hrest] at this ⊢
    exact this
  | cons c cs =>
    rw [hrest] at h
    rw [← hrest]
    exact hsome c cur b cur' (by rw [hrest]; rfl) h

theorem TakesAt.takeWhile {p : Char → Bool} {c : Char} (hc : p c) {f : List Char → Read β}
    (hf : ∀ cs, Shrinks (f cs)) : TakesAt c (takeWhile p >>= f) := by
  intro cur b cur' hhead h
  obtain ⟨_, _, ⟨⟩, h⟩ := bind_eq_ok_iff.mp h
  have hle := (hf _).length_le h
  obtain ⟨cs, hrest⟩ := List.head?_eq_some_iff.mp hhead
  rw [Cursor.rest_skipWhile, hrest, List.dropWhile_cons_of_pos hc] at hle
  rw [hrest]
  exact Nat.le_trans hle (List.dropWhile_suffix p).length_le

end Read

namespace Grammar

open Read (Shrinks Takes TakesFor bind_eq_ok_iff)

/-! ### Operators take characters -/

theorem symbol_ne_nil (op : BinaryOp) : op.symbol ≠ [] := by cases op <;> nofun

theorem word_ne_nil {op : BinaryOp} {word : List Char} (h : op.word? = some word) : word ≠ [] := by
  rintro rfl
  cases op <;> cases h

theorem binaryOp?_takes : (ops : List BinaryOp) → TakesFor (· ≠ none) (binaryOp? ops)
  | [] => .pure fun h => h rfl
  | op :: ops => by
      refine .token (.sign (symbol_ne_nil op)) (.sign _) (.pure _) ?_
      cases hword : op.word? with
      | some word =>
        exact .token (.wholeWord (word_ne_nil hword)) (.wholeWord _) (.pure _) (binaryOp?_takes ops)
      | none => exact binaryOp?_takes ops

theorem unaryOp?_takes : TakesFor (· ≠ none) unaryOp? := by
  refine .bind_right .rest fun cs => ?_
  split
  · exact .pure fun h => h rfl
  · exact .bind_left (.skip Nat.one_ne_zero) fun _ => .pure _
  · refine .token (.wholeWord nofun) (.wholeWord _) (.pure _) ?_
    exact .ite (.bind_left (.skip Nat.one_ne_zero) fun _ => .pure _) (.pure fun h => h rfl)

/-! ### Parts of a block take characters -/

theorem escape_takes (d : Draft) : Read.TakesAt '\\' (escape d) := by
  refine .takeWhile rfl fun _ => Shrinks.peek?.bind fun c? => ?_
  cases c? with
  | some c =>
    exact .ite (.ite ((Shrinks.skip 1).bind fun _ => .pure _) (.pure _)) (.pure _)
  | none => exact .pure _

theorem reference?_takes {inner : Inner} (h : inner.Shrinks) :
    TakesFor (· ≠ none) (reference? inner) := by
  refine .bind_right .rest fun cs => ?_
  cases sigil? cs.tail with
  | none => exact .pure fun hn => hn rfl
  | some s =>
    have hlength : s.length ≠ 0 := by rw [Sigil.length]; omega
    have htakes : Takes (referenceAfter inner s) := by
      refine .bind_right .get fun _ => .bind_left (.skip hlength) fun _ => ?_
      exact Shrinks.name.bind fun _ => (segments_shrinks h _).bind fun _ =>
        .ite ((Shrinks.char _ _).bind fun _ => Shrinks.get.bind fun _ => .pure _)
          (Shrinks.get.bind fun _ => .pure _)
    exact .bind_left htakes fun _ => .pure _

theorem hash_takes {inner : Inner} (h : inner.Shrinks) (d : Draft) : Takes (hash inner d) := by
  refine .bind_right .rest fun cs => ?_
  split
  · refine .bind_left (.bind_right .get fun _ => .bind_right (.skipWhile _) fun _ => ?_)
      fun _ => .pure _
    exact .bind_left (.skip Nat.one_ne_zero) fun _ => .pure _
  · refine .bind_left (.bind_right .get fun _ => .bind_right .rest fun cs => ?_) fun _ => .pure _
    cases Text.indexOf? ['*', '#'] (cs.drop 2) with
    | some n => exact .bind_left (.skip (Nat.succ_ne_zero _)) fun _ => gobble_shrinks _ d
    | none => exact .fail _
  · refine .bind_left (.bind_right .rest fun cs => ?_) fun _ => .pure _
    dsimp only
    cases Text.indexOf? [']', ']', '#'] (cs.drop 3) with
    | some n => exact .bind_left (.skip (Nat.succ_ne_zero _)) fun _ => .pure _
    | none => exact .fail _
  · split
    · exact .bind_right .get fun _ => .bind_left (.skip (Nat.succ_ne_zero _)) fun _ =>
        directive_shrinks h _ _ _ _
    · exact .bind_left (.skip Nat.one_ne_zero) fun _ => .pure _

/-- A part of a block takes a character if one is left. -/
theorem step_takes {inner : Inner} (h : inner.Shrinks) (d : Draft) : Takes (step inner d) := by
  refine .peek? (.pure _) fun c => ?_
  split
  · contradiction
  · rename_i hc
    cases hc
    refine fun cur a cur' hhead hr => ?_
    obtain ⟨d', cur₁, hescape, hr⟩ := bind_eq_ok_iff.mp hr
    cases hr
    exact escape_takes d cur d' _ hhead hescape
  · refine TakesFor.takesAt (.option (reference?_takes h) (reference?_shrinks h) ?_ ?_) c
    · exact fun _ => .pure _
    · exact .bind_left (.skip Nat.one_ne_zero) fun _ => .pure _
  · exact (hash_takes h d).takesAt c
  · exact TakesFor.takesAt (.bind_left (.skip Nat.one_ne_zero) fun _ => .pure _) c

/-! ### Where nothing is left -/

theorem binaryOp?_of_nil {cur : Cursor} (hcur : cur.rest = []) :
    (ops : List BinaryOp) → binaryOp? ops cur = .ok (none, cur)
  | [] => rfl
  | op :: ops => by
      obtain ⟨rest, position, indent⟩ := cur
      obtain rfl : rest = [] := hcur
      have hnil : (⟨[], position, indent⟩ : Cursor).rest = [] := rfl
      have hops := binaryOp?_of_nil hnil ops
      cases op <;> exact hops

theorem chain_of_nil {cur : Cursor} (hcur : cur.rest = []) (operand : Read Expr)
    (ops : List BinaryOp) (limit : Nat) (left : Expr) :
    chain operand ops limit left cur = .ok (left, cur) := by
  cases limit with
  | zero => rfl
  | succ limit =>
    have hnone := binaryOp?_of_nil hcur ops
    obtain ⟨rest, position, indent⟩ := cur
    obtain rfl : rest = [] := hcur
    refine bind_eq_ok_iff.mpr ⟨(), _, rfl, bind_eq_ok_iff.mpr ⟨position, _, rfl, ?_⟩⟩
    exact bind_eq_ok_iff.mpr ⟨none, _, hnone, rfl⟩

theorem segments_of_nil {cur : Cursor} (hcur : cur.rest = []) (inner : Inner) (limit : Nat) :
    segments inner limit cur = .ok ([], cur) := by
  cases limit with
  | zero => rfl
  | succ limit =>
    refine bind_eq_ok_iff.mpr ⟨cur.rest, cur, rfl, ?_⟩
    rw [hcur]
    rfl

theorem unary_of_nil {cur : Cursor} (hcur : cur.rest = []) (inner : Inner) (limit : Nat) :
    unary inner limit cur = Read.unexpected .expression cur := by
  obtain ⟨rest, position, indent⟩ := cur
  obtain rfl : rest = [] := hcur
  cases limit <;> rfl

theorem levels_of_nil {cur : Cursor} (hcur : cur.rest = []) (inner : Inner) (limit : Nat) :
    (levels : List (List BinaryOp)) →
      levels.foldr (level limit) (unary inner limit) cur = Read.unexpected .expression cur
  | [] => unary_of_nil hcur inner limit
  | ops :: levels => by
      have hoperand := levels_of_nil hcur inner limit levels
      change (levels.foldr (level limit) (unary inner limit) cur >>= fun p =>
        chain (levels.foldr (level limit) (unary inner limit)) ops limit p.1 p.2) = _
      rw [hoperand]
      rfl

theorem step_of_nil {cur : Cursor} (hcur : cur.rest = []) (inner : Inner) (d : Draft) :
    step inner d cur = .ok (.done ⟨d.finish, .endOfText⟩, cur) := by
  obtain ⟨rest, position, indent⟩ := cur
  obtain rfl : rest = [] := hcur
  rfl

theorem blockFrom_of_nil {cur : Cursor} (hcur : cur.rest = []) (inner : Inner) (limit : Nat)
    (d : Draft) : blockFrom inner limit d cur = .ok (⟨d.finish, .endOfText⟩, cur) := by
  cases limit with
  | zero => rfl
  | succ limit => exact bind_eq_ok_iff.mpr ⟨_, cur, step_of_nil hcur inner d, rfl⟩

/-- A block that does not end with the text takes a character. -/
theorem blockFrom_takes {inner : Inner} (h : inner.Shrinks) (limit : Nat) (d : Draft)
    {cur cur' : Cursor} {b : Block} (hr : blockFrom inner limit d cur = .ok (b, cur'))
    (hb : b.ending ≠ .endOfText) : cur'.rest.length < cur.rest.length := by
  by_cases hcur : cur.rest = []
  · rw [blockFrom_of_nil hcur] at hr
    cases hr
    exact absurd rfl hb
  have hpos := List.length_pos_iff.mpr hcur
  cases limit with
  | zero =>
    cases hr
    exact absurd rfl hb
  | succ limit =>
    obtain ⟨s, cur₁, hstep, hr⟩ := bind_eq_ok_iff.mp hr
    have htakes := step_takes h d cur s cur₁ hstep trivial
    cases s with
    | goOn d =>
      have := (blockFrom_shrinks h limit d).length_le hr
      omega
    | done b =>
      cases hr
      omega

end Grammar

theorem Inner.upTo_takes : (limit : Nat) → ∀ cur b cur',
    (Inner.upTo limit).block cur = .ok (b, cur') → b.ending ≠ .endOfText →
      cur'.rest.length < cur.rest.length
  | 0, cur, b, cur', hr, hb => by
      cases hr
      exact absurd rfl hb
  | limit + 1, _, _, _, hr, hb =>
      Grammar.blockFrom_takes (Inner.upTo_shrinks limit) _ _ hr hb

end GatewayMapping.Template
