import Mathlib.Tactic.IntervalCases
import GatewayMapping.Proofs.Printing.Expression
import GatewayMapping.Proofs.Reading.Outcome

/-!
# Reading operators

Signs and words of operators overlap: `<` begins `<=`, `!` begins `!=`, a word may begin a longer
name. With a blank after it an operator is read as itself at its own level and as nothing at all
other levels, and no operator is read at what may follow an expression.

## Main definitions

* `Grammar.operatorAt?`: the operator that a text begins with.
* `Follows`: what may stand after an expression.
-/

namespace GatewayMapping.Template

namespace Grammar

/-- The operator of some that a text begins with, and its length. -/
def operatorAt? : List BinaryOp → List Char → Option (BinaryOp × Nat)
  | [], _ => none
  | op :: ops, cs =>
    if op.symbol.isPrefixOf cs then some (op, op.symbol.length)
    else
      match op.word? with
      | some word =>
        if Read.beginsWithWord word cs then some (op, word.length) else operatorAt? ops cs
      | none => operatorAt? ops cs

/-- The operators of a level. -/
def opsAt (k : Nat) : List BinaryOp := levels.getD k []

theorem binaryOp?_yields {cs : List Char} {Q : Option BinaryOp → List Char → Prop} :
    (ops : List BinaryOp) →
      (match operatorAt? ops cs with
        | some (op, n) => Q (some op) (cs.drop n)
        | none => Q none cs) → Read.Yields (binaryOp? ops) cs Q
  | [], h => .pure h
  | op :: ops, h => by
      unfold operatorAt? at h
      refine .seq ?_
      cases hsign : op.symbol.isPrefixOf cs with
      | true =>
        rw [hsign, if_pos rfl] at h
        exact .sign_true hsign (.pure h)
      | false =>
        rw [hsign, if_neg Bool.false_ne_true] at h
        refine .sign_false hsign ?_
        rw [if_neg Bool.false_ne_true]
        cases hword : op.word? with
        | none =>
          rw [hword] at h
          exact binaryOp?_yields ops h
        | some word =>
          rw [hword] at h
          refine .seq ?_
          cases hbegins : Read.beginsWithWord word cs with
          | true =>
            simp only [hbegins, if_true] at h
            exact .wholeWord_true hbegins (.pure h)
          | false =>
            simp only [hbegins, if_false, Bool.false_eq_true] at h
            exact .wholeWord_false hbegins (binaryOp?_yields ops h)

/-! ### Operators with a blank after them -/

theorem isPrefixOf_append_cons {token s rest : List Char} {c : Char} (hc : c ∉ token) :
    token.isPrefixOf (s ++ c :: rest) = token.isPrefixOf s := by
  induction token generalizing s with
  | nil => rw [List.isPrefixOf, List.isPrefixOf]
  | cons t token ih =>
    have hne : (t == c) = false := beq_false_of_ne fun h => hc (h ▸ List.mem_cons_self)
    have hrest : c ∉ token := fun h => hc (List.mem_cons_of_mem t h)
    cases s with
    | nil =>
      change (t == c && token.isPrefixOf rest) = false
      rw [hne, Bool.false_and]
    | cons d s => rw [List.cons_append, List.isPrefixOf, List.isPrefixOf, ih hrest]

theorem beginsWithWord_append_cons {word s rest : List Char} {c : Char}
    (hword : ∀ d ∈ word, isNameChar d = true) (hc : isNameChar c = false) :
    Read.beginsWithWord word (s ++ c :: rest) = Read.beginsWithWord word s := by
  have hmem : c ∉ word := fun h => by
    rw [hword c h] at hc
    cases hc
  rw [Read.beginsWithWord, Read.beginsWithWord, isPrefixOf_append_cons hmem]
  cases hpre : word.isPrefixOf s with
  | false => rfl
  | true =>
    obtain ⟨after, rfl⟩ := List.isPrefixOf_iff_prefix.mp hpre
    rw [List.append_assoc, List.drop_left, List.drop_left]
    cases after with
    | nil => simp [hc]
    | cons d after => rfl

theorem not_isNameChar_of_blank {c : Char} (hc : isExprBlank c = true) : isNameChar c = false := by
  simp only [isExprBlank, Bool.or_eq_true, decide_eq_true_eq] at hc
  rcases hc with ((rfl | rfl) | rfl) | rfl <;> rfl

theorem blank_not_mem_symbol {c : Char} (hc : isExprBlank c = true) (op : BinaryOp) :
    c ∉ op.symbol := by
  simp only [isExprBlank, Bool.or_eq_true, decide_eq_true_eq] at hc
  rcases hc with ((rfl | rfl) | rfl) | rfl <;> cases op <;> decide

theorem isNameChar_of_mem_word {op : BinaryOp} {word : List Char} (h : op.word? = some word) :
    ∀ d ∈ word, isNameChar d = true := by
  cases op <;> cases h <;> exact List.all_eq_true.mp rfl

/-- A blank ends every operator. -/
theorem operatorAt?_append_cons {s rest : List Char} {c : Char} (hc : isExprBlank c = true) :
    (ops : List BinaryOp) → operatorAt? ops (s ++ c :: rest) = operatorAt? ops s
  | [] => rfl
  | op :: ops => by
      rw [operatorAt?, operatorAt?, isPrefixOf_append_cons (blank_not_mem_symbol hc op),
        operatorAt?_append_cons hc ops]
      cases hword : op.word? with
      | none => rfl
      | some word =>
        simp only [beginsWithWord_append_cons (isNameChar_of_mem_word hword)
          (not_isNameChar_of_blank hc)]

/-- An operator is read at its own level only. -/
theorem operatorAt?_spelled {op : BinaryOp} {s : List Char} (hs : op.Spelled s) {k : Nat}
    (hk : k < unaryLevel) :
    operatorAt? (opsAt k) s = if op.level = k then some (op, s.length) else none := by
  change k < 6 at hk
  obtain rfl | hword := hs
  · cases op <;> interval_cases k <;> decide
  · cases op <;> cases hword <;> interval_cases k <;> decide

/-- No operator begins with a character that may follow an expression. -/
theorem operatorAt?_closing {c : Char} {rest : List Char}
    (hc : c ∈ [')', ',', ']', ':', '\x7d', '.']) :
    (ops : List BinaryOp) → operatorAt? ops (c :: rest) = none
  | [] => rfl
  | op :: ops => by
      have hops : operatorAt? ops (c :: rest) = none := operatorAt?_closing hc ops
      simp only [List.mem_cons, List.not_mem_nil, or_false] at hc
      rcases hc with rfl | rfl | rfl | rfl | rfl | rfl <;> cases op <;> exact hops

end Grammar

/-! ### Blanks before a text -/

theorem dropWhile_of_head {c : Char} {cs : List Char} (hc : isExprBlank c = false) :
    (c :: cs).dropWhile isExprBlank = c :: cs :=
  List.dropWhile_cons_of_neg (by rw [hc]; nofun)

theorem Blanks.dropWhile {bs cs : List Char} (h : Blanks bs) :
    (bs ++ cs).dropWhile isExprBlank = cs.dropWhile isExprBlank :=
  List.dropWhile_append_of_pos h

theorem BinaryOp.Spelled.head {op : BinaryOp} {s : List Char} (hs : op.Spelled s) :
    ∃ c rest, s = c :: rest ∧ isExprBlank c = false := by
  obtain rfl | hword := hs
  · cases op <;> exact ⟨_, _, rfl, rfl⟩
  · cases op <;> cases hword <;> exact ⟨_, _, rfl, rfl⟩

theorem UnaryOp.Spelled.head {op : UnaryOp} {s : List Char} (hs : op.Spelled s) :
    ∃ c rest, s = c :: rest ∧ isExprBlank c = false := by
  obtain rfl | ⟨-, rfl⟩ := hs
  · cases op <;> exact ⟨_, _, rfl, rfl⟩
  · exact ⟨_, _, rfl, rfl⟩

/-! ### What follows an expression -/

/-- What may stand after an expression whose operators are of level `k` or of tighter ones: a
closing character, or an operator of a looser level between blanks. -/
inductive Follows (k : Nat) : List Char → Prop
  | close {c rest} (hc : c ∈ [')', ',', ']', ':', '\x7d']) : Follows k (c :: rest)
  | dots {rest} : Follows k ('.' :: '.' :: rest)
  | operator {op bs s c rest} (hop : BinaryOp.level op < k) (hbs : BlankRun bs)
      (hs : BinaryOp.Spelled op s) (hc : isExprBlank c = true) :
      Follows k (bs ++ (s ++ c :: rest))

namespace Follows

variable {k : Nat} {tail : List Char}

theorem mono {k' : Nat} (h : Follows k tail) (hk : k ≤ k') : Follows k' tail := by
  cases h with
  | close hc => exact .close hc
  | dots => exact .dots
  | operator hop hbs hs hc => exact .operator (Nat.lt_of_lt_of_le hop hk) hbs hs hc

/-- No name goes on in what follows an expression, and no text in single quotes does. -/
theorem head (h : Follows k tail) :
    ∃ c rest, tail = c :: rest ∧ isNameChar c = false ∧ c ≠ '\'' := by
  cases h with
  | @close c rest hc =>
    refine ⟨c, rest, rfl, ?_⟩
    simp only [List.mem_cons, List.not_mem_nil, or_false] at hc
    rcases hc with rfl | rfl | rfl | rfl | rfl <;> decide
  | dots => exact ⟨'.', _, rfl, by decide⟩
  | @operator op bs s c rest hop hbs hs hc =>
    obtain ⟨hne, hblanks⟩ := hbs
    obtain ⟨b, bs, rfl⟩ := List.exists_cons_of_ne_nil hne
    have hb := hblanks b List.mem_cons_self
    refine ⟨b, _, rfl, Grammar.not_isNameChar_of_blank hb, ?_⟩
    rintro rfl
    cases hb

/-- No number goes on in what follows an expression. -/
theorem not_fraction (h : Follows k tail) {c : Char} {rest : List Char}
    (htail : tail = '.' :: c :: rest) : c.isDigit = false := by
  cases h with
  | close hc =>
    cases htail
    contradiction
  | dots =>
    cases htail
    rfl
  | operator hop hbs hs hc =>
    obtain ⟨hne, hblanks⟩ := hbs
    obtain ⟨b, bs, rfl⟩ := List.exists_cons_of_ne_nil hne
    obtain ⟨rfl, -⟩ := List.cons.inj htail
    have hb := hblanks '.' List.mem_cons_self
    cases hb

/-- After the blanks, no operator of level `k` or of a tighter one follows. -/
theorem no_operator (h : Follows k tail) {j : Nat} (hkj : k ≤ j) (hj : j < unaryLevel) :
    Grammar.operatorAt? (Grammar.opsAt j) (tail.dropWhile isExprBlank) = none := by
  cases h with
  | @close c rest hc =>
    have hblank : isExprBlank c = false := by
      simp only [List.mem_cons, List.not_mem_nil, or_false] at hc
      rcases hc with rfl | rfl | rfl | rfl | rfl <;> rfl
    rw [dropWhile_of_head hblank]
    exact Grammar.operatorAt?_closing (List.mem_append_left ['.'] hc) _
  | dots => exact Grammar.operatorAt?_closing (by simp) _
  | @operator op bs s c rest hop hbs hs hc =>
    obtain ⟨d, s', rfl, hd⟩ := hs.head
    rw [hbs.2.dropWhile, List.cons_append, dropWhile_of_head hd, ← List.cons_append,
      Grammar.operatorAt?_append_cons hc, Grammar.operatorAt?_spelled hs hj,
      if_neg (Nat.ne_of_lt (Nat.lt_of_lt_of_le hop hkj))]

end Follows

end GatewayMapping.Template
