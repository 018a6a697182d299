import Mathlib.Data.List.DropRight
import GatewayMapping.Proofs.Printing.Operators
import GatewayMapping.Proofs.Reading.Integers
import GatewayMapping.Proofs.Syntax.Unplaced

/-!
# Reading what is written of an expression

Each level of the grammar reads an operand of the next level and goes on with operators of its
own. A text at a level is a spine of such operators, whose operands are texts at the next level.
So what is proved of a text at a level is what happens to its spine: wherever the chain of the
level goes on well after the text, reading the text from its first operand goes on like that
(`SpineAt`). At the outermost level the chain meets no further operator, and what has been read
is the expression (`ReadsAt`).

What follows the text decides where reading stops: a closing character, or a looser operator.
There is one lemma for each form of an expression, and one for each step of a reference.

## Main definitions

* `ReadsAt`, `SpineAt`, `Parses`: a text is read as an expression at a level.
* `ReadsItem`, `ReadsMore`, `ReadsItems`: a text is read as a sequence, or as a part of one.
* `ReadsPrimary`: a text is read as an expression without operators outside brackets.
* `EndsName`, `EndsPath`: what may follow a name, and the path of a reference without braces.
* `ReadsPath`: a text is read as the path of a reference.

## Main results

* `SpineAt.binary`, `ReadsAt.unary`: operators go on with their operands.
* `reference?_yields`: a reference is read with its path, in braces or without them.
-/

namespace GatewayMapping.Template

open Read (Yields)
open Grammar

/-- Forgets the literal of a reference. -/
def noLiteral : String → String := fun _ => ""

variable {n limit k : Nat} {e : Expr} {cs : List Char}

/-! ### Levels of the grammar -/

/-- Reads an expression whose operators are of level `k` or of tighter ones. -/
def Grammar.levelFrom (inner : Inner) (limit k : Nat) : Read Expr :=
  (levels.drop k).foldr (level limit) (unary inner limit)

theorem Grammar.levelFrom_of_lt (inner : Inner) (limit : Nat) (hk : k < unaryLevel) :
    levelFrom inner limit k = level limit (opsAt k) (levelFrom inner limit (k + 1)) := by
  change k < 6 at hk
  interval_cases k <;> rfl

theorem Inner.expr_upTo (n : Nat) :
    (Inner.upTo (n + 1)).expr = levelFrom (Inner.upTo n) (n + 1) 0 := by
  change (fun cur => Grammar.expr (Inner.upTo n) cur) = _
  rw [Grammar.expr, Inner.limit_upTo]
  rfl

/-! ### Reading at a level -/

/-- Blanks after an expression are passed over or they are not. -/
def Leaves (tail left : List Char) : Prop := left = tail ∨ left = tail.dropWhile isExprBlank

/-- The expression has been read, places and literals apart. -/
def Got (e : Expr) (tail : List Char) (e' : Expr) (left : List Char) : Prop :=
  e'.unplaced noLiteral = e.unplaced noLiteral ∧ Leaves tail left

/-- After any blanks, the text is read as the expression at level `k`. -/
def ReadsAt (k : Nat) (e : Expr) (cs : List Char) : Prop :=
  ∀ ⦃n limit : Nat⦄, cs.length ≤ n + 1 → cs.length ≤ limit →
    ∀ ⦃bs tail : List Char⦄, Blanks bs → Follows k tail →
      Yields (levelFrom (Inner.upTo n) limit k) (bs ++ (cs ++ tail)) (Got e tail)

/-- After any blanks, reading the text at level `k` goes on as the chain of the level does after
the expression. Fewer rounds of the chain are used up than the text has characters. -/
def SpineAt (k : Nat) (e : Expr) (cs : List Char) : Prop :=
  ∀ ⦃n limit : Nat⦄, cs.length ≤ n + 1 → cs.length ≤ limit →
    ∀ ⦃bs tail : List Char⦄ ⦃Q : Expr → List Char → Prop⦄, Blanks bs → Follows (k + 1) tail →
      (∀ e' limit', e'.unplaced noLiteral = e.unplaced noLiteral →
        limit + 1 ≤ limit' + cs.length →
          Yields (chain (levelFrom (Inner.upTo n) limit (k + 1)) (opsAt k) limit' e')
            (tail.dropWhile isExprBlank) Q) →
      Yields (levelFrom (Inner.upTo n) limit k) (bs ++ (cs ++ tail)) Q

/-- A chain passes over the blanks before its next operator. -/
theorem chain_yields {operand : Read Expr} {ops : List BinaryOp} {tail left : List Char}
    {Q : Expr → List Char → Prop} (hlimit : 0 < limit) (hleft : Leaves tail left)
    (h : Yields (chain operand ops limit e) (tail.dropWhile isExprBlank) Q) :
    Yields (chain operand ops limit e) left Q := by
  obtain ⟨limit, rfl⟩ := Nat.exists_eq_add_one_of_ne_zero (by omega : limit ≠ 0)
  obtain rfl | rfl := hleft
  · exact .of_dropWhile h
  · exact h

/-- A chain that meets no operator of its level ends. -/
theorem chain_ends {operand : Read Expr} {tail : List Char} {Q : Expr → List Char → Prop}
    (hlimit : 0 < limit) (hk : k < unaryLevel) (htail : Follows k tail)
    (h : Q e (tail.dropWhile isExprBlank)) :
    Yields (chain operand (opsAt k) limit e) (tail.dropWhile isExprBlank) Q := by
  obtain ⟨limit, rfl⟩ := Nat.exists_eq_add_one_of_ne_zero (by omega : limit ≠ 0)
  refine .seq (.skipWhile (.seq (.here fun _ => .seq (binaryOp?_yields _ ?_))))
  rw [List.dropWhile_idempotent, htail.no_operator (Nat.le_refl k) hk]
  exact .pure h

theorem SpineAt.reads (h : SpineAt k e cs) (hk : k < unaryLevel) (hcs : cs ≠ []) :
    ReadsAt k e cs := by
  intro n limit hn hlimit bs tail hbs htail
  have hpos := List.length_pos_iff.mpr hcs
  refine h hn hlimit hbs (htail.mono (Nat.le_succ k)) fun e' limit' he' hlimit' => ?_
  exact chain_ends (by omega) hk htail ⟨he', .inr rfl⟩

theorem ReadsAt.spine (h : ReadsAt (k + 1) e cs) (hk : k < unaryLevel) (hcs : cs ≠ []) :
    SpineAt k e cs := by
  intro n limit hn hlimit bs tail Q hbs htail hQ
  have hpos := List.length_pos_iff.mpr hcs
  rw [levelFrom_of_lt _ _ hk]
  refine .seq ((h hn hlimit hbs htail).mono fun e' left he' => ?_)
  exact chain_yields (by omega) he'.2 (hQ e' limit he'.1 (by omega))

/-- A text at a level: what it is read as, and how the chain of the level goes on after it. -/
structure Parses (k : Nat) (e : Expr) (cs : List Char) : Prop where
  reads : ReadsAt k e cs
  spine : k < unaryLevel → SpineAt k e cs

theorem SpineAt.parses (h : SpineAt k e cs) (hk : k < unaryLevel) (hcs : cs ≠ []) :
    Parses k e cs :=
  ⟨h.reads hk hcs, fun _ => h⟩

theorem ReadsAt.parses (h : ReadsAt unaryLevel e cs) : Parses unaryLevel e cs :=
  ⟨h, fun hk => absurd hk (Nat.lt_irrefl _)⟩

/-- A text at a level is one at every looser level. -/
theorem Parses.loosen (hcs : cs ≠ []) : ∀ {j : Nat}, Parses j e cs → j ≤ unaryLevel → k ≤ j →
    Parses k e cs := by
  intro j h hj hkj
  induction j with
  | zero => exact Nat.le_zero.mp hkj ▸ h
  | succ j ih =>
    obtain rfl | hlt := Nat.eq_or_lt_of_le hkj
    · exact h
    · exact ih ((h.reads.spine hj hcs).parses hj hcs) (Nat.le_of_succ_le hj) (Nat.le_of_lt_succ hlt)

/-! ### Operators -/

theorem BinaryOp.level_lt (op : BinaryOp) : op.level < unaryLevel := by
  cases op <;> decide

theorem SpineAt.binary {op : BinaryOp} {left right : Expr} {position : Position}
    {cs bs s bs' ds : List Char} (hleft : SpineAt op.level left cs) (hbs : BlankRun bs)
    (hs : op.Spelled s) (hbs' : BlankRun bs') (hright : ReadsAt (op.level + 1) right ds) :
    SpineAt op.level (.binary op left right position) (cs ++ (bs ++ (s ++ (bs' ++ ds)))) := by
  intro n limit hn hlimit bs₀ tail Q hbs₀ htail hQ
  obtain ⟨b, bs'', rfl⟩ := List.exists_cons_of_ne_nil hbs'.1
  obtain ⟨d, s', rfl, hd⟩ := hs.head
  have hb := hbs'.2 b List.mem_cons_self
  simp only [List.length_append, List.length_cons] at hn hlimit hQ
  simp only [List.append_assoc, List.cons_append]
  refine hleft (by omega) (by omega) hbs₀ (.operator (Nat.lt_succ_self _) hbs hs hb)
    fun left' limit' hleft' hlimit' => ?_
  obtain ⟨limit', rfl⟩ : ∃ l, limit' = l + 1 := ⟨limit' - 1, by omega⟩
  rw [hbs.2.dropWhile, dropWhile_of_head hd]
  refine .seq (.skipWhile (.seq (.here fun p => .seq (binaryOp?_yields _ ?_))))
  rw [dropWhile_of_head hd, ← List.cons_append, operatorAt?_append_cons hb,
    operatorAt?_spelled hs op.level_lt, if_pos rfl]
  simp only [List.drop_left]
  refine .seq ((hright (by omega) (by omega) hbs'.2 htail).mono fun right' left hright' => ?_)
  refine chain_yields (by omega) hright'.2 (hQ _ _ ?_ (by omega))
  simp only [Expr.unplaced, hleft', hright'.1]

theorem unaryOp?_yields {op : UnaryOp} {s rest : List Char} {c : Char}
    {Q : Option UnaryOp → List Char → Prop} (hs : op.Spelled s) (hc : isExprBlank c = true)
    (h : Q (some op) (c :: rest)) : Yields unaryOp? (s ++ c :: rest) Q := by
  have hword : Read.beginsWithWord ['n', 'o', 't'] ('n' :: 'o' :: 't' :: c :: rest) = true := by
    simp [Read.beginsWithWord, not_isNameChar_of_blank hc]
  refine .seq (.rest ?_)
  obtain rfl | ⟨rfl, rfl⟩ := hs
  · cases op with
    | not =>
      simp only [isExprBlank, Bool.or_eq_true, decide_eq_true_eq] at hc
      rcases hc with ((rfl | rfl) | rfl) | rfl <;> exact .seq (.skip (.pure h))
    | negate => exact .seq (.wholeWord_false rfl (.seq (.skip (.pure h))))
  · exact .seq (.wholeWord_true hword (.pure h))

theorem ReadsAt.unary {op : UnaryOp} {operand : Expr} {position : Position}
    {s bs cs : List Char} (hs : op.Spelled s) (hbs : BlankRun bs)
    (hoperand : ReadsAt unaryLevel operand cs) :
    ReadsAt unaryLevel (.unary op operand position) (s ++ (bs ++ cs)) := by
  intro n limit hn hlimit bs₀ tail hbs₀ htail
  obtain ⟨b, bs', rfl⟩ := List.exists_cons_of_ne_nil hbs.1
  have hb := hbs.2 b List.mem_cons_self
  have hdrop : (bs₀ ++ (s ++ (b :: bs' ++ cs) ++ tail)).dropWhile isExprBlank =
      s ++ b :: (bs' ++ (cs ++ tail)) := by
    obtain ⟨d, s', rfl, hd⟩ := hs.head
    simp only [List.append_assoc, List.cons_append]
    rw [hbs₀.dropWhile, dropWhile_of_head hd]
  simp only [List.length_append, List.length_cons] at hn hlimit
  obtain ⟨limit, rfl⟩ := Nat.exists_eq_add_one_of_ne_zero (by omega : limit ≠ 0)
  refine .seq (.skipWhile (.seq (.here fun p => .seq ?_)))
  rw [hdrop]
  refine unaryOp?_yields hs hb (.seq ?_)
  refine (hoperand (by omega) (by omega) hbs.2 htail).mono fun e' left he' => .pure ⟨?_, he'.2⟩
  simp only [Expr.unplaced, he'.1]

/-- A minus sign needs no blank before its operand. -/
theorem ReadsAt.minus {operand : Expr} {position : Position} {cs : List Char}
    (hoperand : ReadsAt unaryLevel operand cs) :
    ReadsAt unaryLevel (.unary .negate operand position) ('-' :: cs) := by
  intro n limit hn hlimit bs₀ tail hbs₀ htail
  rw [List.length_cons] at hn hlimit
  obtain ⟨limit, rfl⟩ := Nat.exists_eq_add_one_of_ne_zero (by omega : limit ≠ 0)
  refine .seq (.skipWhile (.seq (.here fun p => .seq ?_)))
  rw [hbs₀.dropWhile, List.cons_append, dropWhile_of_head rfl]
  refine .seq (.rest (.seq (.wholeWord_false rfl (.seq (.skip (.pure (.seq ?_)))))))
  have hblanks : Blanks [] := nofun
  refine (hoperand (by omega) (by omega) hblanks htail).mono fun e' left he' =>
    .pure ⟨?_, he'.2⟩
  simp only [Expr.unplaced, he'.1]

/-! ### Sequences -/

/-- The characters that close brackets. -/
def closers : List Char := [')', ']', '\x7d']

theorem Follows.close_of_mem {c : Char} {rest : List Char} (hc : c ∈ closers) :
    Follows k (c :: rest) := by
  simp only [closers, List.mem_cons, List.not_mem_nil, or_false] at hc
  rcases hc with rfl | rfl | rfl <;> exact .close (by simp)

theorem not_blank_of_mem_closers {c : Char} (hc : c ∈ closers) : isExprBlank c = false := by
  simp only [closers, List.mem_cons, List.not_mem_nil, or_false] at hc
  rcases hc with rfl | rfl | rfl <;> rfl

/-- No blanks stand before what closes an expression that is not inside an operator. -/
theorem Follows.dropWhile_blanks {tail : List Char} (h : Follows 0 tail) :
    tail.dropWhile isExprBlank = tail := by
  cases h with
  | close hc =>
    refine dropWhile_of_head ?_
    simp only [List.mem_cons, List.not_mem_nil, or_false] at hc
    rcases hc with rfl | rfl | rfl | rfl | rfl <;> rfl
  | dots => rfl
  | operator hop _ _ _ => exact absurd hop (Nat.not_lt_zero _)

section

variable {α β : Type} {item : Nat → Read α} {f : α → β} {a : α} {as : List α} {ds : List Char}

/-- A text in a sequence is read as an item, with blanks before it or with these passed over. -/
structure ReadsItem (item : Nat → Read α) (f : α → β) (a : α) (cs : List Char) : Prop where
  head : ∃ c rest, cs.dropWhile isExprBlank = c :: rest ∧ c ∉ closers
  reads : ∀ ⦃n : Nat⦄, cs.length ≤ n → ∀ ⦃tail : List Char⦄, Follows 0 tail →
    Yields (item n) (cs ++ tail) (fun a' left => f a' = f a ∧ left = tail) ∧
    Yields (item n) ((cs ++ tail).dropWhile isExprBlank) fun a' left => f a' = f a ∧ left = tail

/-- A text is read as what follows the first item of a sequence. -/
structure ReadsMore (item : Nat → Read α) (f : α → β) (as : List α) (ds : List Char) : Prop where
  head : ds = [] ∨ ∃ rest, ds = ',' :: rest
  reads : ∀ ⦃n limit : Nat⦄, ds.length ≤ n → ds.length < limit →
    ∀ ⦃close : Char⦄ ⦃tail : List Char⦄ ⦃expected : Expected⦄, close ∈ closers →
      Yields (Read.itemsAfter (item n) close expected limit) (ds ++ close :: tail)
        fun as' left => as'.map f = as.map f ∧ left = tail

/-- A text is read as a sequence between brackets. -/
inductive ReadsItems (item : Nat → Read α) (f : α → β) : List α → List Char → Prop
  | nil : ReadsItems item f [] []
  | cons {x xs cs ds} (h : ReadsItem item f x cs) (hxs : ReadsMore item f xs ds) :
      ReadsItems item f (x :: xs) (cs ++ ds)

theorem ReadsItem.head_ne (h : ReadsItem item f a cs) {close : Char} (hclose : close ∈ closers)
    (tail : List Char) : ((cs ++ tail).dropWhile isExprBlank).head? ≠ some close := by
  obtain ⟨c, rest, hc, hcloser⟩ := h.head
  rw [List.dropWhile_append, hc]
  rintro ⟨⟩
  exact hcloser hclose

theorem ReadsMore.follows (h : ReadsMore item f as ds) {close : Char} {tail : List Char}
    (hclose : close ∈ closers) : Follows 0 (ds ++ close :: tail) := by
  obtain rfl | ⟨rest, rfl⟩ := h.head
  · exact .close_of_mem hclose
  · exact .close (by simp)

theorem ReadsMore.nil : ReadsMore item f [] [] where
  head := .inl rfl
  reads n limit _ hlimit close tail expected hclose := by
    obtain ⟨limit, rfl⟩ := Nat.exists_eq_add_one_of_ne_zero (by omega : limit ≠ 0)
    refine .seq (.skipWhile (.seq ?_))
    rw [List.nil_append, dropWhile_of_head (not_blank_of_mem_closers hclose)]
    refine .peek? ?_
    have hcomma : close ≠ ',' := by
      rintro rfl
      simp [closers] at hclose
    simp only [List.head?_cons, if_neg hcomma, if_true]
    exact .seq (.skip (.pure ⟨rfl, rfl⟩))

theorem ReadsMore.cons (h : ReadsItem item f a cs) (has : ReadsMore item f as ds) :
    ReadsMore item f (a :: as) (',' :: (cs ++ ds)) where
  head := .inr ⟨_, rfl⟩
  reads n limit hn hlimit close tail expected hclose := by
    obtain ⟨limit, rfl⟩ := Nat.exists_eq_add_one_of_ne_zero (by omega : limit ≠ 0)
    rw [List.length_cons, List.length_append] at hn hlimit
    refine .seq (.skipWhile (.seq (.peek? (.seq (.skip (.seq ?_))))))
    rw [List.cons_append, List.append_assoc, dropWhile_of_head rfl]
    refine (h.reads (by omega) (has.follows hclose)).1.mono fun a' left ha' => ?_
    obtain ⟨ha', rfl⟩ := ha'
    refine .seq ((has.reads (by omega) (by omega) hclose).mono fun as' left has' => ?_)
    exact .pure ⟨List.cons_eq_cons.mpr ⟨ha', has'.1⟩, has'.2⟩

theorem ReadsItems.yields (h : ReadsItems item f as cs) (hn : cs.length ≤ n)
    (hlimit : cs.length < limit) {close : Char} {tail : List Char} {expected : Expected}
    (hclose : close ∈ closers) :
    Yields (Read.items (item n) close expected limit) (cs ++ close :: tail)
      fun as' left => as'.map f = as.map f ∧ left = tail := by
  cases h with
  | nil =>
    refine .seq (.skipWhile (.seq ?_))
    rw [List.nil_append, dropWhile_of_head (not_blank_of_mem_closers hclose)]
    refine .peek? ?_
    rw [List.head?_cons, if_pos rfl]
    exact .seq (.skip (.pure ⟨rfl, rfl⟩))
  | @cons a as cs ds h has =>
    rw [List.length_append] at hn hlimit
    have hfollows : Follows 0 (ds ++ close :: tail) := has.follows hclose
    refine .seq (.skipWhile (.seq (.peek? ?_)))
    rw [List.append_assoc, if_neg (h.head_ne hclose _)]
    refine .seq ((h.reads (by omega) hfollows).2.mono fun a' left ha' => ?_)
    obtain ⟨ha', rfl⟩ := ha'
    refine .seq ((has.reads (by omega) (by omega) hclose).mono fun as' left has' => ?_)
    exact .pure ⟨List.cons_eq_cons.mpr ⟨ha', has'.1⟩, has'.2⟩

end

/-! ### Expressions inside brackets -/

/-- A text begins with a character that no expression ends with, and with no blank. -/
def Starts (cs : List Char) : Prop :=
  ∃ c rest, cs = c :: rest ∧ isExprBlank c = false ∧ c ∉ closers

theorem Starts.ne_nil (h : Starts cs) : cs ≠ [] := by
  obtain ⟨c, rest, rfl, -, -⟩ := h
  exact List.cons_ne_nil c rest

/-- Reads an expression inside brackets where at most `n` characters are left. -/
def innerExpr (n : Nat) : Read Expr := (Inner.upTo n).expr

/-- Reads a key and its value inside brackets where at most `n` characters are left. -/
def innerEntry (n : Nat) : Read (Expr × Expr) := Grammar.entry (Inner.upTo n)

theorem Parses.readsItem (h : Parses 0 e cs) (hcs : Starts cs) {bs : List Char}
    (hbs : Blanks bs) : ReadsItem innerExpr (Expr.unplaced noLiteral) e (bs ++ cs) where
  head := by
    obtain ⟨c, rest, rfl, hc, hcloser⟩ := hcs
    exact ⟨c, rest, by rw [hbs.dropWhile, dropWhile_of_head hc], hcloser⟩
  reads n hn tail htail := by
    have hpos := List.length_pos_iff.mpr hcs.ne_nil
    rw [List.length_append] at hn
    obtain ⟨m, rfl⟩ := Nat.exists_eq_add_one_of_ne_zero (by omega : n ≠ 0)
    have hreads : ∀ bs, Blanks bs → Yields (innerExpr (m + 1)) (bs ++ (cs ++ tail))
        fun e' left => e'.unplaced noLiteral = e.unplaced noLiteral ∧ left = tail := by
      intro bs hbs
      rw [innerExpr, Inner.expr_upTo]
      refine (h.reads (by omega) (by omega) hbs htail).mono fun e' left he' => ⟨he'.1, ?_⟩
      rcases he'.2 with hleft | hleft
      · exact hleft
      · rw [hleft, htail.dropWhile_blanks]
    refine ⟨?_, ?_⟩
    · rw [List.append_assoc]
      exact hreads bs hbs
    · obtain ⟨c, rest, rfl, hc, -⟩ := hcs
      rw [List.append_assoc, hbs.dropWhile, List.cons_append, dropWhile_of_head hc]
      exact hreads [] .nil

theorem ReadsItem.entry {key value : Expr} {cs ds : List Char}
    (hkey : ReadsItem innerExpr (Expr.unplaced noLiteral) key cs)
    (hvalue : ReadsItem innerExpr (Expr.unplaced noLiteral) value ds) :
    ReadsItem innerEntry (fun e => (e.1.unplaced noLiteral, e.2.unplaced noLiteral)) (key, value)
      (cs ++ ':' :: ds) where
  head := by
    obtain ⟨c, rest, hc, hcloser⟩ := hkey.head
    refine ⟨c, rest ++ ':' :: ds, ?_, hcloser⟩
    rw [List.dropWhile_append, hc]
    rfl
  reads n hn tail htail := by
    rw [List.length_append, List.length_cons] at hn
    have hfollows : Follows 0 (':' :: (ds ++ tail)) := .close (by simp)
    have hkeys := hkey.reads (by omega : cs.length ≤ n) hfollows
    have hrest {cs₀ : List Char} (h : Yields (innerExpr n) cs₀ fun e' left =>
        e'.unplaced noLiteral = key.unplaced noLiteral ∧ left = ':' :: (ds ++ tail)) :
        Yields (innerEntry n) cs₀ fun e' left =>
          (e'.1.unplaced noLiteral, e'.2.unplaced noLiteral) =
            (key.unplaced noLiteral, value.unplaced noLiteral) ∧ left = tail := by
      refine .seq (h.mono fun key' left hkey' => ?_)
      obtain ⟨hkey', rfl⟩ := hkey'
      refine .seq (.skipWhile (.seq ?_))
      rw [dropWhile_of_head rfl]
      refine .char (.seq ((hvalue.reads (by omega) htail).1.mono fun value' left hvalue' => ?_))
      exact .pure ⟨Prod.ext hkey' hvalue'.1, hvalue'.2⟩
    rw [List.append_assoc, List.cons_append]
    exact ⟨hrest hkeys.1, hrest hkeys.2⟩

/-! ### Expressions without operators -/

/-- A text is read as an expression that has no operator outside brackets. -/
def ReadsPrimary (e : Expr) (cs : List Char) : Prop :=
  ∀ ⦃n : Nat⦄, cs.length ≤ n + 1 → ∀ ⦃tail : List Char⦄, Follows unaryLevel tail →
    Yields (primary (Inner.upTo n)) (cs ++ tail)
      fun e' left => e'.unplaced noLiteral = e.unplaced noLiteral ∧ left = tail

/-- Without an operator of one operand before it, what is read at the level of these operators is
read as one operand. -/
theorem ReadsPrimary.readsAt (h : ReadsPrimary e cs) {c : Char} {rest : List Char}
    (hcs : cs = c :: rest) (hblank : isExprBlank c = false) (hnot : c ≠ '!')
    (hnegate : c ≠ '-')
    (hword : ∀ tail, Read.beginsWithWord ['n', 'o', 't'] (cs ++ tail) = false) :
    ReadsAt unaryLevel e cs := by
  intro n limit hn hlimit bs tail hbs htail
  have hdrop : (bs ++ (cs ++ tail)).dropWhile isExprBlank = cs ++ tail := by
    rw [hcs, hbs.dropWhile, List.cons_append, dropWhile_of_head hblank]
  have hprimary := (h hn htail).mono fun e' left he' =>
    (⟨he'.1, .inl he'.2⟩ : Got e tail e' left)
  obtain ⟨limit, rfl⟩ : ∃ l, limit = l + 1 := ⟨limit - 1, by
    rw [hcs, List.length_cons] at hlimit
    omega⟩
  refine .seq (.skipWhile (.seq (.here fun p => .seq (.seq (.rest ?_)))))
  rw [hdrop]
  split
  · rename_i heq
    rw [hcs] at heq
    exact absurd (List.cons.inj heq).1 hnot
  · rename_i heq
    rw [hcs] at heq
    exact absurd (List.cons.inj heq).1 hnot
  · refine .seq (.wholeWord_false (hword tail) ?_)
    have hhead : ¬(cs ++ tail).head? = some '-' := by
      rw [hcs]
      exact fun heq => hnegate (Option.some.inj heq)
    rw [if_neg Bool.false_ne_true, if_neg hhead]
    exact .pure hprimary

theorem constant_yields {word : List Char} {k' : Nat} {tail : List Char}
    (htail : Follows k' tail)
    (hword : word = ['t', 'r', 'u', 'e'] ∧ e = .bool true ∨
      word = ['f', 'a', 'l', 's', 'e'] ∧ e = .bool false ∨
      word = ['n', 'u', 'l', 'l'] ∧ e = .null) :
    Yields constant (word ++ tail) fun e' left => e' = e ∧ left = tail := by
  obtain ⟨c, rest, rfl, hc, -⟩ := htail.head
  have hbegins (word : List Char) : Read.beginsWithWord word (word ++ c :: rest) = true := by
    rw [Read.beginsWithWord, List.drop_left, List.head?_cons, Option.any_some, hc]
    simp
  rcases hword with ⟨rfl, rfl⟩ | ⟨rfl, rfl⟩ | ⟨rfl, rfl⟩
  · exact .seq (.wholeWord_true (hbegins _) (.pure ⟨rfl, rfl⟩))
  · exact .seq (.wholeWord_false rfl (.seq (.wholeWord_true (hbegins _) (.pure ⟨rfl, rfl⟩))))
  · exact .seq (.wholeWord_false rfl (.seq (.wholeWord_false rfl
      (.seq (.wholeWord_true (hbegins _) (.pure ⟨rfl, rfl⟩))))))

theorem doubled_eq_self {quote : Char} : {cs : List Char} → quote ∉ cs → doubled quote cs = cs
  | [], _ => rfl
  | c :: cs, h => by
      obtain ⟨hc, hcs⟩ := not_or.mp (mt List.mem_cons.mpr h)
      rw [doubled, if_neg (Ne.symm hc), doubled_eq_self hcs]

/-- A text in quotes ends at the quote after which no further one stands. -/
theorem quotedContent?_doubled {quote : Char} {rest : List Char}
    (hrest : rest.head? ≠ some quote) : (cs : List Char) →
      Read.quotedContent? quote (doubled quote cs ++ quote :: rest) =
        some (cs, (doubled quote cs).length + 1)
  | [] => by
      cases rest with
      | nil => simp [doubled, Read.quotedContent?]
      | cons d rest =>
        have hd : d ≠ quote := fun h => hrest (congrArg some h)
        simp [doubled, Read.quotedContent?, hd]
  | c :: cs => by
      have ih := quotedContent?_doubled hrest cs
      by_cases hc : c = quote
      · subst hc
        simp [doubled, Read.quotedContent?, ih]
      · obtain ⟨d, ds, hds⟩ : ∃ d ds, doubled quote cs ++ quote :: rest = d :: ds :=
          List.exists_cons_of_ne_nil (by simp)
        rw [doubled, if_neg hc, List.cons_append, hds, Read.quotedContent?, if_neg hc, ← hds, ih]
        rfl

/-- Digits that no fraction follows are read as a whole number. -/
theorem number_yields {ds : List Char} (hds : ∀ d ∈ ds, d.isDigit = true) {tail : List Char}
    {k' : Nat} (htail : Follows k' tail) :
    Yields number (ds ++ tail) fun e' left => e' = numberValue ds none ∧ left = tail := by
  obtain ⟨c, rest, hrest, hc, -⟩ := htail.head
  have hdigit : c.isDigit = false := by
    rw [isNameChar, Char.isAlphanum] at hc
    simp only [Bool.or_eq_false_iff] at hc
    exact hc.1.2
  have htake : (ds ++ tail).takeWhile Char.isDigit = ds := by
    rw [List.takeWhile_append_of_pos hds, hrest,
      List.takeWhile_cons_of_neg (by rw [hdigit]; nofun), List.append_nil]
  have hdrop : (ds ++ tail).dropWhile Char.isDigit = tail := by
    rw [List.dropWhile_append_of_pos hds, hrest,
      List.dropWhile_cons_of_neg (by rw [hdigit]; nofun)]
  refine .seq (.takeWhile (.seq (.rest ?_)))
  rw [htake, hdrop]
  split
  · rename_i d _
    have hd := htail.not_fraction (c := d) rfl
    rw [hd, if_neg Bool.false_ne_true]
    exact .pure ⟨rfl, rfl⟩
  · exact .pure ⟨rfl, rfl⟩

/-- A whole number of 63 bits is an integer. -/
theorem numberValue_of_lt {ds : List Char} (hvalue : Json.Read.digitsValue ds < Nat.pow 2 63) :
    numberValue ds none = .int (.ofNat (Json.Read.digitsValue ds)) := by
  simp [numberValue, hvalue]

/-- Digits are read as a number. -/
theorem primary_digit {cs : List Char} {c : Char} {Q : Expr → List Char → Prop} {inner : Inner}
    (hc : c.isDigit = true) (h : Yields number (c :: cs) Q) :
    Yields (primary inner) (c :: cs) Q := by
  have hblank : isExprBlank c = false := by
    rw [isExprBlank]
    simp only [Bool.or_eq_false_iff, decide_eq_false_iff_not]
    refine ⟨⟨⟨?_, ?_⟩, ?_⟩, ?_⟩ <;> rintro rfl <;> cases hc
  refine .seq (.skipWhile (.seq (.peek? ?_)))
  rw [dropWhile_of_head hblank, List.head?_cons]
  split <;> rename_i heq <;> cases heq
  case h_8 =>
    rw [if_pos hc]
    exact h
  all_goals cases hc

theorem ReadsPrimary.wholeNumber {ds : List Char} (hne : ds ≠ [])
    (hds : ∀ d ∈ ds, d.isDigit = true) : ReadsPrimary (numberValue ds none) ds := by
  intro n _ tail htail
  have hnumber := number_yields hds htail
  obtain ⟨c, rest, rfl⟩ := List.exists_cons_of_ne_nil hne
  refine primary_digit (hds c List.mem_cons_self) (hnumber.mono fun e' left he' => ⟨?_, he'.2⟩)
  rw [he'.1]

theorem ReadsPrimary.digits {ds : List Char} (hne : ds ≠ []) (hds : ∀ d ∈ ds, d.isDigit = true)
    (hvalue : Json.Read.digitsValue ds < Nat.pow 2 63) :
    ReadsPrimary (.int (.ofNat (Json.Read.digitsValue ds))) ds :=
  numberValue_of_lt hvalue ▸ .wholeNumber hne hds

theorem ReadsPrimary.int {m : Int64} (hm : 0 ≤ m.toInt) :
    ReadsPrimary (.int m) (Nat.toDigits 10 m.toInt.toNat) := by
  have hlt : m.toInt.toNat < Nat.pow 2 63 := by
    have := m.toInt_lt
    change m.toInt.toNat < 9223372036854775808
    omega
  have hm' : Int64.ofNat m.toInt.toNat = m :=
    Int64.ofNat_toNatClampNeg m (Int64.le_iff_toInt_le.mpr hm)
  obtain ⟨c, rest, hcs, -⟩ := toDigits_head m.toInt.toNat
  have hdigits := ReadsPrimary.digits (hcs ▸ List.cons_ne_nil c rest)
    (fun d hd => isDigit_of_mem_toDigits hd) (by rwa [digitsValue_toDigits])
  rwa [digitsValue_toDigits, hm'] at hdigits

theorem ReadsPrimary.string {s : String} :
    ReadsPrimary (.string s) ('\'' :: (doubled '\'' s.toList ++ ['\''])) := by
  intro n _ tail htail
  obtain ⟨c, rest, rfl, -, hc⟩ := htail.head
  have hquoted : Read.quotedContent? '\'' (doubled '\'' s.toList ++ '\'' :: c :: rest) =
      some (s.toList, (doubled '\'' s.toList).length + 1) := by
    refine quotedContent?_doubled ?_ s.toList
    rintro ⟨⟩
    exact hc rfl
  refine .seq (.skipWhile (.seq (.peek? ?_)))
  rw [List.cons_append, List.append_assoc, dropWhile_of_head rfl]
  refine .seq (.quoted hquoted (.pure ⟨?_, ?_⟩))
  · rw [String.ofList_toList]
  · rw [← List.drop_drop, List.drop_left]
    rfl

theorem ReadsPrimary.paren {cs : List Char}
    (h : ReadsItem innerExpr (Expr.unplaced noLiteral) e cs) :
    ReadsPrimary e ('(' :: (cs ++ [')'])) := by
  intro n hn tail _
  simp only [List.length_cons, List.length_append, List.length_nil] at hn
  refine .seq (.skipWhile (.seq (.peek? (.seq (.skip (.seq ?_))))))
  rw [List.cons_append, List.append_assoc, dropWhile_of_head rfl]
  refine (h.reads (by omega) (.close (by simp))).1.mono fun e' left he' => ?_
  obtain ⟨he', rfl⟩ := he'
  refine .seq (.skipWhile (.seq ?_))
  rw [dropWhile_of_head rfl]
  exact .char (.pure ⟨he', rfl⟩)

theorem ReadsPrimary.list {es : List Expr} {cs : List Char}
    (h : ReadsItems innerExpr (Expr.unplaced noLiteral) es cs) :
    ReadsPrimary (.list es) ('[' :: (cs ++ [']'])) := by
  intro n hn tail _
  simp only [List.length_cons, List.length_append, List.length_nil] at hn
  refine .seq (.skipWhile (.seq (.peek? (.seq (.skip (.seq (.skipWhile (.seq ?_))))))))
  rw [List.cons_append, List.append_assoc, dropWhile_of_head rfl, List.drop_succ_cons,
    List.drop_zero, List.cons_append, List.nil_append]
  cases h with
  | nil => exact .peek? (.seq (.skip (.pure ⟨rfl, rfl⟩)))
  | @cons e es cs ds h hes =>
    rw [List.length_append] at hn
    have hfollows : Follows 0 (ds ++ ']' :: tail) := hes.follows (by simp [closers])
    have hdots : List.isPrefixOf ['.', '.'] (ds ++ ']' :: tail) = false := by
      obtain rfl | ⟨rest, rfl⟩ := hes.head <;> rfl
    refine .peek? ?_
    rw [List.append_assoc, if_neg (h.head_ne (by simp [closers]) _)]
    refine .seq ((h.reads (by omega) hfollows).2.mono fun e' left he' => ?_)
    obtain ⟨he', rfl⟩ := he'
    refine .seq (.skipWhile (.seq ?_))
    rw [hfollows.dropWhile_blanks]
    refine .sign_false hdots (.seq ?_)
    refine (hes.reads (by omega) (by rw [Inner.limit_upTo]; omega) (by simp [closers])).mono
      fun es' left hes' => .pure ⟨?_, hes'.2⟩
    simp only [Expr.unplaced, unplacedExprs_eq_map, List.map_cons, he', hes'.1]

theorem ReadsPrimary.range {first last : Expr} {cs ds : List Char}
    (hfirst : ReadsItem innerExpr (Expr.unplaced noLiteral) first cs)
    (hlast : ReadsItem innerExpr (Expr.unplaced noLiteral) last ds) :
    ReadsPrimary (.range first last) ('[' :: (cs ++ '.' :: '.' :: (ds ++ [']']))) := by
  intro n hn tail _
  simp only [List.length_cons, List.length_append, List.length_nil] at hn
  refine .seq (.skipWhile (.seq (.peek? (.seq (.skip (.seq (.skipWhile (.seq (.peek? ?_)))))))))
  rw [List.cons_append, List.append_assoc, dropWhile_of_head rfl, List.drop_succ_cons,
    List.drop_zero, List.cons_append, List.cons_append, List.append_assoc, List.cons_append,
    List.nil_append, if_neg (hfirst.head_ne (by simp [closers]) _)]
  refine .seq ((hfirst.reads (by omega) .dots).2.mono fun first' left hfirst' => ?_)
  obtain ⟨hfirst', rfl⟩ := hfirst'
  refine .seq (.skipWhile (.seq (.sign_true rfl (.seq ?_))))
  refine (hlast.reads (by omega) (.close (by simp))).1.mono fun last' left hlast' => ?_
  obtain ⟨hlast', rfl⟩ := hlast'
  refine .seq (.skipWhile (.seq ?_))
  rw [dropWhile_of_head rfl]
  refine .char (.pure ⟨?_, rfl⟩)
  simp only [Expr.unplaced, hfirst', hlast']

theorem ReadsPrimary.map {entries : List (Expr × Expr)} {cs : List Char}
    (h : ReadsItems innerEntry (fun e => (e.1.unplaced noLiteral, e.2.unplaced noLiteral))
      entries cs) :
    ReadsPrimary (.map entries) ('\x7b' :: (cs ++ ['\x7d'])) := by
  intro n hn tail _
  simp only [List.length_cons, List.length_append, List.length_nil] at hn
  refine .seq (.skipWhile (.seq (.peek? (.seq (.skip (.seq ?_))))))
  rw [List.cons_append, List.append_assoc, dropWhile_of_head rfl, List.drop_succ_cons,
    List.drop_zero]
  refine (h.yields (by omega) (by rw [Inner.limit_upTo]; omega) (by simp [closers])).mono
    fun es' left hes' => .pure ⟨?_, hes'.2⟩
  simp only [Expr.unplaced, unplacedEntries_eq_map, hes'.1]

/-! ### References -/

/-- What may stand after a name. -/
def EndsName (tail : List Char) : Prop := ∀ c, tail.head? = some c → isNameChar c = false

/-- What may stand after a reference: neither a name nor a path goes on there. -/
structure EndsPath (tail : List Char) : Prop where
  head : ∀ c, tail.head? = some c → isNameChar c = false ∧ c ≠ '(' ∧ c ≠ '['
  member : ∀ c rest, tail = '.' :: c :: rest → isNameStart c = false

theorem EndsPath.nil : EndsPath [] := ⟨nofun, nofun⟩

theorem EndsPath.cons {c : Char} {rest : List Char}
    (hc : isNameChar c = false ∧ c ≠ '(' ∧ c ≠ '[' ∧ c ≠ '.') : EndsPath (c :: rest) where
  head d hd := by
    obtain rfl := Option.some.inj hd
    exact ⟨hc.1, hc.2.1, hc.2.2.1⟩
  member d rest hrest := absurd (List.cons.inj hrest).1 hc.2.2.2

theorem EndsPath.endsName {tail : List Char} (h : EndsPath tail) : EndsName tail :=
  fun c hc => (h.head c hc).1

/-- Neither a name nor a path goes on in what follows an expression. -/
theorem Follows.endsPath {tail : List Char} (h : Follows k tail) : EndsPath tail := by
  cases h with
  | @close c rest hc =>
    simp only [List.mem_cons, List.not_mem_nil, or_false] at hc
    rcases hc with rfl | rfl | rfl | rfl | rfl <;> exact .cons (by decide)
  | @dots rest =>
    refine ⟨fun c hc => ?_, fun c rest' hrest => ?_⟩
    · obtain rfl := Option.some.inj hc
      decide
    · cases hrest
      rfl
  | @operator op bs s c rest hop hbs hs hc =>
    obtain ⟨b, bs, rfl⟩ := List.exists_cons_of_ne_nil hbs.1
    have hb := hbs.2 b List.mem_cons_self
    refine .cons ⟨not_isNameChar_of_blank hb, ?_, ?_, ?_⟩ <;> rintro rfl <;> cases hb

theorem name_yields {s : String} (hs : IsName s) {tail : List Char} (htail : EndsName tail) :
    Yields Read.name (s.toList ++ tail) fun s' left => s' = s ∧ left = tail := by
  have hchars : ∀ d ∈ s.toList, isNameChar d = true := by
    obtain ⟨d, ds, hds, hstart, hothers⟩ := hs
    rw [hds]
    refine List.forall_mem_cons.mpr ⟨?_, hothers⟩
    rw [isNameStart, Bool.or_eq_true] at hstart
    rw [isNameChar, Char.isAlphanum, Bool.or_eq_true, Bool.or_eq_true]
    exact hstart.imp_left .inl
  have hends : tail.takeWhile isNameChar = [] ∧ tail.dropWhile isNameChar = tail := by
    cases tail with
    | nil => exact ⟨rfl, rfl⟩
    | cons c rest =>
      have hc : ¬isNameChar c = true := by
        rw [htail c rfl]
        nofun
      exact ⟨List.takeWhile_cons_of_neg hc, List.dropWhile_cons_of_neg hc⟩
  refine .seq (.takeWhile (.pure ⟨?_, ?_⟩))
  · rw [List.takeWhile_append_of_pos hchars, hends.1, List.append_nil, String.ofList_toList]
  · rw [List.dropWhile_append_of_pos hchars, hends.2]

/-- A text is read as a path up to where the reference ends. -/
structure ReadsPath (path : List Segment) (cs : List Char) : Prop where
  head : cs = [] ∨ ∃ c rest, cs = c :: rest ∧ (c = '.' ∨ c = '[')
  reads : ∀ ⦃n limit : Nat⦄, cs.length ≤ n → cs.length ≤ limit → ∀ ⦃tail : List Char⦄,
    EndsPath tail → Yields (segments (Inner.upTo n) limit) (cs ++ tail) fun path' left =>
      path'.map (Segment.unplaced noLiteral) = path.map (Segment.unplaced noLiteral) ∧
        left = tail

theorem ReadsPath.nil : ReadsPath [] [] where
  head := .inl rfl
  reads n limit _ _ tail htail := by
    cases limit with
    | zero => exact .pure ⟨rfl, rfl⟩
    | succ limit =>
      refine .seq (.rest ?_)
      rw [List.nil_append]
      split
      · rename_i c rest
        rw [htail.member c rest rfl, if_neg Bool.false_ne_true]
        exact .pure ⟨rfl, rfl⟩
      · exact absurd rfl (htail.head '[' rfl).2.2
      · exact .pure ⟨rfl, rfl⟩

/-- Before a path, a name ends and no call begins. -/
theorem ReadsPath.follows {path : List Segment} (h : ReadsPath path cs) {tail : List Char}
    (htail : EndsPath tail) :
    EndsName (cs ++ tail) ∧ (cs ++ tail).head? ≠ some '(' := by
  obtain rfl | ⟨c, rest, rfl, hc⟩ := h.head
  · exact ⟨htail.endsName, fun hparen => (htail.head _ hparen).2.1 rfl⟩
  · have hc' : isNameChar c = false ∧ c ≠ '(' := by
      rcases hc with rfl | rfl <;> decide
    refine ⟨fun d hd => ?_, fun hparen => hc'.2 (Option.some.inj hparen)⟩
    obtain rfl := Option.some.inj hd
    exact hc'.1

/-- A dot and a name are read as the beginning of a property or of a call. -/
theorem segments_member {inner : Inner} {s : String} (hs : IsName s) {tail : List Char}
    (htail : EndsName tail) {Q : List Segment → List Char → Prop}
    (h : Yields (do
      if (← Read.peek?) = some '(' then
        Read.skip 1
        let args ← Read.items inner.expr ')' .argument inner.limit
        return .method s args :: (← segments inner limit)
      else return .property s :: (← segments inner limit)) tail Q) :
    Yields (segments inner (limit + 1)) ('.' :: (s.toList ++ tail)) Q := by
  have hname : Yields Read.name (s.toList ++ tail) _ := name_yields hs htail
  obtain ⟨d, ds, hds, hstart, -⟩ := hs
  rw [hds] at hname ⊢
  refine .seq (.rest ?_)
  change Yields (if isNameStart d = true then _ else _) _ _
  rw [if_pos hstart]
  refine .seq (.skip (.seq (hname.mono fun s' left hs' => ?_)))
  obtain ⟨rfl, rfl⟩ := hs'
  exact h

theorem ReadsPath.property {s : String} {path : List Segment} (hs : IsName s)
    (h : ReadsPath path cs) : ReadsPath (.property s :: path) ('.' :: (s.toList ++ cs)) where
  head := .inr ⟨'.', _, rfl, .inl rfl⟩
  reads n limit hn hlimit tail htail := by
    rw [List.length_cons, List.length_append] at hn hlimit
    obtain ⟨limit, rfl⟩ := Nat.exists_eq_add_one_of_ne_zero (by omega : limit ≠ 0)
    obtain ⟨hends, hparen⟩ := h.follows htail
    rw [List.cons_append, List.append_assoc]
    refine segments_member hs hends (.seq (.peek? ?_))
    rw [if_neg hparen]
    refine .seq ((h.reads (by omega) (by omega) htail).mono fun path' left hpath' => ?_)
    refine .pure ⟨?_, hpath'.2⟩
    simp only [List.map_cons, Segment.unplaced, hpath'.1]

theorem ReadsPath.method {s : String} {args : List Expr} {path : List Segment} {ds : List Char}
    (hs : IsName s) (hargs : ReadsItems innerExpr (Expr.unplaced noLiteral) args cs)
    (h : ReadsPath path ds) :
    ReadsPath (.method s args :: path) ('.' :: (s.toList ++ '(' :: (cs ++ ')' :: ds))) where
  head := .inr ⟨'.', _, rfl, .inl rfl⟩
  reads n limit hn hlimit tail htail := by
    simp only [List.length_cons, List.length_append] at hn hlimit
    obtain ⟨limit, rfl⟩ := Nat.exists_eq_add_one_of_ne_zero (by omega : limit ≠ 0)
    rw [List.cons_append, List.append_assoc, List.cons_append, List.append_assoc,
      List.cons_append]
    have hends : EndsName ('(' :: (cs ++ ')' :: (ds ++ tail))) := fun c hc => by
      obtain rfl := Option.some.inj hc
      rfl
    refine segments_member hs hends (.seq (.peek? ?_))
    rw [List.head?_cons, if_pos rfl]
    refine .seq (.skip (.seq ?_))
    refine (hargs.yields (by omega) (by rw [Inner.limit_upTo]; omega) (by simp [closers])).mono
      fun args' left hargs' => ?_
    obtain ⟨hargs', rfl⟩ := hargs'
    refine .seq ((h.reads (by omega) (by omega) htail).mono fun path' left hpath' => ?_)
    refine .pure ⟨?_, hpath'.2⟩
    simp only [List.map_cons, Segment.unplaced, unplacedExprs_eq_map, hargs', hpath'.1]

theorem ReadsPath.index {i : Expr} {path : List Segment} {ds : List Char}
    (hi : ReadsItem innerExpr (Expr.unplaced noLiteral) i cs) (h : ReadsPath path ds) :
    ReadsPath (.index i :: path) ('[' :: (cs ++ ']' :: ds)) where
  head := .inr ⟨'[', _, rfl, .inr rfl⟩
  reads n limit hn hlimit tail htail := by
    simp only [List.length_cons, List.length_append] at hn hlimit
    obtain ⟨limit, rfl⟩ := Nat.exists_eq_add_one_of_ne_zero (by omega : limit ≠ 0)
    rw [List.cons_append, List.append_assoc, List.cons_append]
    refine .seq (.rest (.seq (.skip (.seq ?_))))
    refine (hi.reads (by omega) (.close (by simp))).1.mono fun i' left hi' => ?_
    obtain ⟨hi', rfl⟩ := hi'
    refine .seq (.skipWhile (.seq ?_))
    rw [dropWhile_of_head rfl]
    refine .char (.seq ((h.reads (by omega) (by omega) htail).mono fun path' left hpath' => ?_))
    refine .pure ⟨?_, hpath'.2⟩
    simp only [List.map_cons, Segment.unplaced, hi', hpath'.1]

/-- The characters between the `$` of a reference and its name. -/
def Grammar.Sigil.opening (sigil : Sigil) : List Char :=
  (if sigil.quiet then ['!'] else []) ++ if sigil.braced then ['\x7b'] else []

/-- The characters after the path of a reference. -/
def Grammar.Sigil.closing (sigil : Sigil) : List Char := if sigil.braced then ['\x7d'] else []

theorem Grammar.Sigil.length_eq (sigil : Sigil) : sigil.length = sigil.opening.length + 1 := by
  obtain ⟨quiet, braced⟩ := sigil
  cases quiet <;> cases braced <;> rfl

theorem sigil?_opening (sigil : Sigil) {s : String} (hs : IsName s) (rest : List Char) :
    sigil? (sigil.opening ++ (s.toList ++ rest)) = some sigil := by
  obtain ⟨c, cs, hcs, hc, -⟩ := hs
  have hquiet : c ≠ '!' := by
    rintro rfl
    cases hc
  have hbraced : c ≠ '\x7b' := by
    rintro rfl
    cases hc
  obtain ⟨quiet, braced⟩ := sigil
  rw [hcs]
  cases quiet <;> cases braced <;> simp [sigil?, Sigil.opening, hc, hquiet, hbraced]

section

variable {s : String} {path : List Segment} {tail : List Char}

/-- A reference is read from a name and a path. Without braces it ends where no path goes on. -/
theorem reference?_yields (sigil : Sigil) (literal : String) (position : Position)
    (hs : IsName s) (h : ReadsPath path cs) (hn : cs.length ≤ n)
    (htail : EndsPath (sigil.closing ++ tail)) :
    Yields (reference? (Inner.upTo n))
      ('$' :: (sigil.opening ++ (s.toList ++ (cs ++ (sigil.closing ++ tail))))) fun r? left =>
        r?.map (Reference.unplaced noLiteral) =
          some ((Reference.mk s path sigil.quiet literal position).unplaced noLiteral) ∧
        left = tail := by
  have hpath := h.reads hn (Nat.le_succ_of_le hn) htail
  refine .seq (.rest ?_)
  rw [List.tail_cons, sigil?_opening sigil hs]
  refine .seq (.seq (.get fun start _ => .seq (.skip ?_)))
  rw [Sigil.length_eq, List.drop_succ_cons, List.drop_left]
  refine .seq ((name_yields hs (h.follows htail).1).mono fun s' left hs' => ?_)
  obtain ⟨rfl, rfl⟩ := hs'
  refine .seq ?_
  rw [Inner.limit_upTo]
  refine hpath.mono fun path' left hpath' => ?_
  obtain ⟨hpath', rfl⟩ := hpath'
  have hread (literal' : String) (position' : Position) :
      (Reference.mk s' path' sigil.quiet literal' position').unplaced noLiteral =
        (Reference.mk s' path sigil.quiet literal position).unplaced noLiteral := by
    simp only [Reference.unplaced, unplacedSegments_eq_map, hpath', noLiteral]
  obtain ⟨quiet, braced⟩ := sigil
  cases braced with
  | false => exact .seq (.get fun _ _ => .pure (.pure ⟨congrArg some (hread _ _), rfl⟩))
  | true =>
    exact .seq (.char (.seq (.get fun _ _ => .pure (.pure ⟨congrArg some (hread _ _), rfl⟩))))

theorem reference_yields_of_sigil (sigil : Sigil) (literal : String) (position : Position)
    (hs : IsName s) (h : ReadsPath path cs) (hn : cs.length ≤ n)
    (htail : EndsPath (sigil.closing ++ tail)) :
    Yields (reference (Inner.upTo n))
      ('$' :: (sigil.opening ++ (s.toList ++ (cs ++ (sigil.closing ++ tail))))) fun r left =>
        r.unplaced noLiteral =
          (Reference.mk s path sigil.quiet literal position).unplaced noLiteral ∧
        left = tail := by
  have hread := reference?_yields sigil literal position hs h hn htail
  refine .seq (.peek? (.seq (hread.mono fun r? left hr => ?_)))
  obtain ⟨hr, rfl⟩ := hr
  obtain ⟨r, rfl, hr'⟩ := Option.map_eq_some_iff.mp hr
  exact .pure ⟨hr', rfl⟩

theorem primary_reference_yields (sigil : Sigil) (literal : String) (position : Position)
    (hs : IsName s) (h : ReadsPath path cs) (hn : cs.length ≤ n)
    (htail : EndsPath (sigil.closing ++ tail)) :
    Yields (primary (Inner.upTo n))
      ('$' :: (sigil.opening ++ (s.toList ++ (cs ++ (sigil.closing ++ tail))))) fun e left =>
        e.unplaced noLiteral =
          (Expr.reference (.mk s path sigil.quiet literal position)).unplaced noLiteral ∧
        left = tail := by
  refine .seq (.skipWhile (.seq (.peek? ?_)))
  rw [dropWhile_of_head rfl]
  have hread := reference_yields_of_sigil sigil literal position hs h hn htail
  refine .seq (hread.mono fun r left hr => ?_)
  exact .pure ⟨congrArg Expr.reference hr.1, hr.2⟩

/-- A reference in braces is read wherever it stands. -/
theorem ReadsPrimary.reference {quiet : Bool} {literal : String} {position : Position}
    (hs : IsName s) (h : ReadsPath path cs) :
    ReadsPrimary (.reference (.mk s path quiet literal position))
      ('$' :: ((if quiet then ['!'] else []) ++ '\x7b' :: (s.toList ++ (cs ++ ['\x7d'])))) := by
  intro n hn tail _
  simp only [List.length_cons, List.length_append] at hn
  have htail : EndsPath (Sigil.closing ⟨quiet, true⟩ ++ tail) := .cons (by decide)
  have hread :=
    primary_reference_yields ⟨quiet, true⟩ literal position hs h (by omega : _ ≤ n) htail
  simpa [Sigil.opening, Sigil.closing] using hread

/-- A variable is read where no path goes on. -/
theorem ReadsPrimary.variable {literal : String} {position : Position} (hs : IsName s) :
    ReadsPrimary (.reference (.mk s [] false literal position)) ('$' :: s.toList) := by
  intro n hn tail htail
  exact primary_reference_yields ⟨false, false⟩ literal position hs .nil (Nat.zero_le n)
    htail.endsPath

end

end GatewayMapping.Template
