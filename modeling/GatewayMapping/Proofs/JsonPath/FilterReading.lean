import Mathlib.Data.List.DropRight
import GatewayMapping.Proofs.JsonPath.BracketReading

/-!
# Reading filters

The conditions of a level are a spine of signs of that level, whose operands are conditions of the
next level. What is proved of a text at the level of a sign is what happens to its spine: reading
it from its first operand goes on as the chain of the level does after the condition that has been
read (`Spine`). Where no further sign of the level follows, the chain ends and the condition is
what has been read (`ReadsAt`).

Blanks before a text are passed over, and blanks after it may be passed over too, so a reader is
described by what it leaves up to blanks. Negations are counted by a limit of their own, which is
why what stands at the tightest level is read under every limit (`ReadsUnary`).

## Main definitions

* `Follows`: what may stand after a condition of a level.
* `ReadsFilter`: a condition is read from its text at every level.

## Main results

* `ReadsFilter.joined`, `ReadsFilter.not`, `ReadsFilter.compare`, `ReadsFilter.present`: the forms
  of conditions.
* `ReadsOperand.literal`, `ReadsRoute.operand`: the operands of comparisons.
-/

namespace GatewayMapping.JsonPath

open Read
open Text (isBlank)

/-! ### What follows -/

/-- What may stand after a condition whose signs are of level `k` or of tighter ones: a closing
parenthesis, or a sign of a looser level between blanks. -/
inductive Follows (k : Nat) : List Char → Prop
  | close {rest} : Follows k (')' :: rest)
  | sign {c : Connective} {rest} (hc : c.level < k) : Follows k (' ' :: (c.sign ++ ' ' :: rest))

/-- What stands after an operand begins with a blank or with a closing parenthesis. -/
def EndsOperand (tail : List Char) : Prop := ∃ c rest, tail = c :: rest ∧ (c = ' ' ∨ c = ')')

theorem EndsOperand.blank (rest : List Char) : EndsOperand (' ' :: rest) :=
  ⟨' ', rest, rfl, .inl rfl⟩

namespace Follows

variable {k : Nat} {tail : List Char}

theorem mono {k' : Nat} (h : Follows k tail) (hk : k ≤ k') : Follows k' tail := by
  cases h with
  | close => exact .close
  | sign hc => exact .sign (Nat.lt_of_lt_of_le hc hk)

theorem endsOperand (h : Follows k tail) : EndsOperand tail := by
  cases h with
  | close => exact ⟨')', _, rfl, .inr rfl⟩
  | sign hc => exact .blank _

/-- No sign of level `k` follows. -/
theorem not_sign {c : Connective} (h : Follows c.level tail) :
    ¬c.sign <+: tail.dropWhile isBlank := by
  cases h with
  | close =>
    change ¬c.sign <+: ')' :: _
    cases c <;> simp [Connective.sign]
  | @sign d rest hd =>
    cases c <;> cases d
    case and.or =>
      change ¬['&', '&'] <+: '|' :: _
      simp
    all_goals exact absurd hd (by decide)

/-- No comparison follows. -/
theorem comparison? (h : Follows k tail) :
    Read.comparison? comparisons (tail.dropWhile isBlank) =
      .ok (none, tail.dropWhile isBlank) := by
  cases h with
  | close => rfl
  | @sign d rest hd => cases d <;> rfl

end Follows

/-! ### Reading at a level -/

/-- Reads a condition whose signs are of level `k` or of tighter ones. -/
def levelReader (l : Nat) : (k : Nat) → Read Filter
  | 0 => disjunction (filterUpTo l) (l + 1)
  | 1 => conjunction (filterUpTo l) (l + 1)
  | _ => negations (filterUpTo l) (l + 1) (l + 1)

theorem levelReader_level (l : Nat) (c : Connective) :
    levelReader l c.level =
      levelReader l (c.level + 1) >>=
        chain (levelReader l (c.level + 1)) c.sign c.join (l + 1) := by
  cases c <;> rfl

/-- Nothing but blanks. -/
def Blanks (bs : List Char) : Prop := ∀ b ∈ bs, isBlank b = true

/-- A reader reads a condition from a text after blanks and leaves the rest, up to blanks. -/
def ReadsBefore (r : Read Filter) (f : Filter) (text tail : List Char) : Prop :=
  ∀ ⦃bs⦄, Blanks bs →
    ∃ left, r (bs ++ (text ++ tail)) = .ok (f, left) ∧
      left.dropWhile isBlank = tail.dropWhile isBlank

/-- The text is read as the condition at level `k`. -/
def ReadsAt (k : Nat) (f : Filter) (text : List Char) : Prop :=
  ∀ ⦃l tail⦄, text.length ≤ l + 1 → Follows k tail → ReadsBefore (levelReader l k) f text tail

/-- The text is read as the condition where any number of negations may still come that the text
has room for. -/
def ReadsUnary (f : Filter) (text : List Char) : Prop :=
  ∀ ⦃l limit tail⦄, text.length ≤ l + 1 → text.length ≤ limit → Follows 2 tail →
    ReadsBefore (negations (filterUpTo l) (l + 1) limit) f text tail

/-- Reading the text at the level of a sign goes on as the chain of the level does after the
condition. Fewer rounds of the chain are used up than the text has characters. -/
def Spine (c : Connective) (f : Filter) (text : List Char) : Prop :=
  ∀ ⦃l tail bs⦄, text.length ≤ l + 1 → Follows (c.level + 1) tail → Blanks bs →
    ∃ rounds left, l + 2 ≤ rounds + text.length ∧
      levelReader l c.level (bs ++ (text ++ tail)) =
        chain (levelReader l (c.level + 1)) c.sign c.join rounds f left ∧
      left.dropWhile isBlank = tail.dropWhile isBlank

variable {f g : Filter} {text : List Char} {c : Connective}

theorem ReadsUnary.readsAt (h : ReadsUnary f text) : ReadsAt 2 f text :=
  fun _ _ hl htail => h hl hl htail

theorem ReadsAt.spine (h : ReadsAt (c.level + 1) f text) (hne : text ≠ []) : Spine c f text := by
  intro l tail bs hl htail hbs
  have hpos := List.length_pos_iff.mpr hne
  obtain ⟨left, hread, hleft⟩ := h hl htail hbs
  exact ⟨l + 1, left, by omega, by rw [levelReader_level, bind_eq_of_ok hread], hleft⟩

theorem chain_sign {operand : Read Filter} {s cs left rest : List Char}
    {join : Filter → Filter → Filter} {rounds : Nat} (hcs : cs.dropWhile isBlank = s ++ rest)
    (hread : operand rest = .ok (g, left)) :
    chain operand s join (rounds + 1) f cs = chain operand s join rounds (join f g) left := by
  have hskip : skipBlanks cs = .ok ((), s ++ rest) := by rw [skipBlanks, hcs]
  rw [chain, bind_eq_of_ok hskip, bind_eq_of_ok (sign_append s rest), if_pos rfl,
    bind_eq_of_ok hread]

theorem chain_end {operand : Read Filter} {s cs : List Char} {join : Filter → Filter → Filter}
    {rounds : Nat} (hcs : ¬s <+: cs.dropWhile isBlank) :
    chain operand s join (rounds + 1) f cs = .ok (f, cs.dropWhile isBlank) := by
  rw [chain, bind_eq_of_ok (show skipBlanks cs = .ok ((), cs.dropWhile isBlank) from rfl),
    bind_eq_of_ok (sign_false hcs), if_neg (by decide)]
  rfl

/-- Where no sign of the level follows, the spine is the condition. -/
theorem Spine.readsAt (h : Spine c f text) : ReadsAt c.level f text := by
  intro l tail hl htail bs hbs
  obtain ⟨rounds, left, hrounds, hread, hleft⟩ := h hl (htail.mono (Nat.le_succ _)) hbs
  obtain ⟨rounds, rfl⟩ : ∃ r, rounds = r + 1 := ⟨rounds - 1, by omega⟩
  rw [hread, chain_end (hleft ▸ htail.not_sign)]
  exact ⟨_, rfl, by rw [List.dropWhile_idempotent, hleft]⟩

theorem Connective.dropWhile_sign (c : Connective) (rest : List Char) :
    (' ' :: (c.sign ++ rest)).dropWhile isBlank = c.sign ++ rest := by
  cases c <;> rfl

/-- A sign goes on with the spine of its left operand. -/
theorem Spine.join {left right : List Char} (hf : Spine c f left)
    (hg : ReadsAt (c.level + 1) g right) : Spine c (c.join f g) (around c.sign left right) := by
  intro l tail bs hl htail hbs
  simp only [around, List.length_append, List.length_cons] at hl
  obtain ⟨rounds, mid, hrounds, hread, hmid⟩ :=
    hf (l := l) (by omega) (.sign (Nat.lt_succ_self c.level)) hbs
  obtain ⟨rounds, rfl⟩ : ∃ r, rounds = r + 1 := ⟨rounds - 1, by omega⟩
  have hblank : Blanks [' '] := List.forall_mem_singleton.mpr rfl
  obtain ⟨after, hright, hafter⟩ := hg (l := l) (by omega) htail hblank
  rw [c.dropWhile_sign] at hmid
  refine ⟨rounds, after, ?_, ?_, hafter⟩
  · simp only [around, List.length_append, List.length_cons]
    omega
  · rw [around, List.append_assoc, List.cons_append, List.append_assoc, List.cons_append, hread]
    exact chain_sign hmid hright

/-! ### All levels -/

/-- A text begins with a character that makes no sign out of a `!` before it. -/
def Starts (text : List Char) : Prop := ∃ d rest, text = d :: rest ∧ d ≠ '='

theorem Starts.ne_nil (h : Starts text) : text ≠ [] := by
  obtain ⟨d, rest, rfl, -⟩ := h
  exact List.cons_ne_nil d rest

theorem Starts.append (h : Starts text) (cs : List Char) : Starts (text ++ cs) := by
  obtain ⟨d, rest, rfl, hd⟩ := h
  exact ⟨d, rest ++ cs, rfl, hd⟩

theorem Starts.atLevel (h : Starts text) (asked level : Nat) :
    Starts (atLevel asked level text) := by
  unfold JsonPath.atLevel
  split
  · exact ⟨'(', _, rfl, by decide⟩
  · exact h

/-- The condition is read from its text at every level, in parentheses where the level asks for
them. -/
structure ReadsFilter (f : Filter) : Prop where
  starts : Starts f.text
  spine (c : Connective) : Spine c f (atLevel c.level f.level f.text)
  unary : ReadsUnary f (atLevel 2 f.level f.text)

theorem atLevel_of_le {asked level : Nat} (h : asked ≤ level) (cs : List Char) :
    atLevel asked level cs = cs :=
  if_neg (Nat.not_lt.mpr h)

theorem skipBlanks_append {bs : List Char} (hbs : Blanks bs) {c : Char} (hc : isBlank c = false)
    (cs : List Char) : skipBlanks (bs ++ c :: cs) = .ok ((), c :: cs) := by
  rw [skipBlanks, List.dropWhile_append_of_pos hbs,
    List.dropWhile_cons_of_neg (Bool.eq_false_iff.mp hc)]

/-- Where a condition may be of any level, it is read up to a closing parenthesis. -/
theorem Spine.filterUpTo (h : Spine .or f text) (hne : text ≠ []) {l : Nat}
    (hl : text.length ≤ l) (tail : List Char) :
    ∃ left, filterUpTo l (text ++ ')' :: tail) = .ok (f, left) ∧
      left.dropWhile isBlank = ')' :: tail := by
  have hpos := List.length_pos_iff.mpr hne
  obtain ⟨l, rfl⟩ : ∃ n, l = n + 1 := ⟨l - 1, by omega⟩
  exact h.readsAt hl .close (List.forall_mem_nil _)

/-- A condition in parentheses is as tight as one without signs. -/
theorem Spine.paren (h : Spine .or f text) (hne : text ≠ []) :
    ReadsUnary f ('(' :: (text ++ [')'])) := by
  intro l limit tail hl hlimit htail bs hbs
  simp only [List.length_cons, List.length_append, List.length_nil] at hl hlimit
  obtain ⟨limit, rfl⟩ : ∃ n, limit = n + 1 := ⟨limit - 1, by omega⟩
  obtain ⟨left, hread, hleft⟩ := h.filterUpTo hne (l := l) (by omega) tail
  have hskip : skipBlanks left = .ok ((), ')' :: tail) := by rw [skipBlanks, hleft]
  refine ⟨tail, ?_, rfl⟩
  rw [List.cons_append, List.append_assoc, negations, bind_eq_of_ok (skipBlanks_append hbs rfl _)]
  change (do
    let f ← Read.filterUpTo l
    skipBlanks
    char ')'
    return f) (text ++ ')' :: tail) = _
  rw [bind_eq_of_ok hread, bind_eq_of_ok hskip]
  rfl

/-- At the loosest level no parentheses are asked for. -/
theorem ReadsFilter.spine_text (h : ReadsFilter f) : Spine .or f f.text :=
  atLevel_of_le (Nat.zero_le f.level) f.text ▸ h.spine .or

theorem ReadsFilter.readsAt_next (h : ReadsFilter f) (c : Connective) :
    ReadsAt (c.level + 1) f (atLevel (c.level + 1) f.level f.text) :=
  match c with
  | .or => (h.spine .and).readsAt
  | .and => h.unary.readsAt

theorem ReadsUnary.readsFilter (h : ReadsUnary f f.text) (hlevel : f.level = 2)
    (hstarts : Starts f.text) : ReadsFilter f where
  starts := hstarts
  unary := by rwa [hlevel, atLevel_of_le (Nat.le_refl 2)]
  spine c := by
    have hand : Spine .and f f.text := ReadsAt.spine (c := .and) h.readsAt hstarts.ne_nil
    rw [hlevel, atLevel_of_le (by cases c <;> decide)]
    match c with
    | .and => exact hand
    | .or => exact ReadsAt.spine (c := .or) hand.readsAt hstarts.ne_nil

/-- Two conditions with a sign between them. -/
theorem ReadsFilter.joined (c : Connective) (hf : ReadsFilter f) (hg : ReadsFilter g) :
    ReadsFilter (c.join f g) := by
  have htext : (c.join f g).text = around c.sign (atLevel c.level f.level f.text)
      (atLevel (c.level + 1) g.level g.text) := by
    cases c <;> rfl
  have hstarts : Starts (c.join f g).text := by
    rw [htext, around]
    exact (hf.starts.atLevel _ _).append _
  have hspine : Spine c (c.join f g) (c.join f g).text :=
    htext ▸ (hf.spine c).join (hg.readsAt_next c)
  cases c with
  | or =>
    have hparen := hspine.paren hstarts.ne_nil
    have hand : Spine .and (.or f g) ('(' :: ((Filter.or f g).text ++ [')'])) :=
      ReadsAt.spine (c := .and) hparen.readsAt (List.cons_ne_nil _ _)
    exact ⟨hstarts, fun | .or => hspine | .and => hand, hparen⟩
  | and =>
    have hor : Spine .or (.and f g) (Filter.and f g).text :=
      ReadsAt.spine (c := .or) hspine.readsAt hstarts.ne_nil
    exact ⟨hstarts, fun | .or => hor | .and => hspine, hor.paren hstarts.ne_nil⟩

/-! ### Negations and comparisons -/

variable {filter : Read Filter} {size limit : Nat} {bs cs tail : List Char} {d : Char}

theorem get_eq (cs : List Char) : (get : Read (List Char)) cs = .ok (cs, cs) := rfl

theorem negations_not (hbs : Blanks bs) (hd : d ≠ '=') :
    negations filter size (limit + 1) (bs ++ '!' :: d :: cs) =
      (negations filter size limit >>= fun f => pure (Filter.not f)) (d :: cs) := by
  rw [negations, bind_eq_of_ok (skipBlanks_append hbs rfl (d :: cs)), bind_eq_of_ok (get_eq _)]
  change _ = (skip 1 >>= fun _ => negations filter size limit >>= fun f => pure (Filter.not f))
    ('!' :: d :: cs)
  refine congrFun ?_ ('!' :: d :: cs)
  split
  · next heq => exact absurd (List.cons.inj (List.cons.inj heq).2).1 hd
  · rfl
  · next heq => cases heq
  · next hbang _ => exact (hbang _ rfl).elim

theorem negations_comparison (hbs : Blanks bs) (hblank : isBlank d = false) (hnot : d ≠ '!')
    (hparen : d ≠ '(') :
    negations filter size (limit + 1) (bs ++ d :: cs) = comparison filter size (d :: cs) := by
  rw [negations, bind_eq_of_ok (skipBlanks_append hbs hblank cs), bind_eq_of_ok (get_eq _)]
  refine congrFun ?_ (d :: cs)
  split
  · rfl
  · next heq => exact absurd (List.cons.inj heq).1 hnot
  · next heq => exact absurd (List.cons.inj heq).1 hparen
  · rfl

/-- A negation is as tight as its operand, and another one may stand before it. -/
theorem ReadsFilter.not (h : ReadsFilter f) : ReadsFilter (.not f) := by
  refine ReadsUnary.readsFilter ?_ rfl ⟨'!', _, rfl, by decide⟩
  intro l limit tail hl hlimit htail bs hbs
  have htext : (Filter.not f).text = '!' :: atLevel 2 f.level f.text := rfl
  rw [htext, List.length_cons] at hl hlimit
  obtain ⟨limit, rfl⟩ : ∃ n, limit = n + 1 := ⟨limit - 1, by omega⟩
  obtain ⟨left, hread, hleft⟩ := h.unary (l := l) (by omega) (Nat.le_of_succ_le_succ hlimit) htail
    (List.forall_mem_nil _)
  obtain ⟨d, rest, hrest, hd⟩ := h.starts.atLevel 2 f.level
  rw [hrest] at htext hread
  refine ⟨left, ?_, hleft⟩
  rw [htext, List.cons_append, List.cons_append, negations_not hbs hd]
  rw [List.nil_append, List.cons_append] at hread
  rw [bind_eq_of_ok hread]
  rfl

/-! ### Operands -/

/-- An operand is read from its text after blanks, and the rest is left. -/
structure ReadsOperand (o : Operand) : Prop where
  starts : ∃ d rest, o.text = d :: rest ∧ isBlank d = false ∧ d ∉ ['!', '(', '=']
  reads ⦃l : Nat⦄ ⦃bs tail : List Char⦄ : o.text.length ≤ l + 1 → Blanks bs →
    EndsOperand tail → operand (filterUpTo l) (l + 1) (bs ++ (o.text ++ tail)) = .ok (o, tail)

theorem operand_minus (hbs : Blanks bs) (cs : List Char) :
    operand filter size (bs ++ '-' :: cs) = number ('-' :: cs) := by
  rw [operand, bind_eq_of_ok (skipBlanks_append hbs rfl cs)]
  rfl

theorem operand_digit (hbs : Blanks bs) (hd : d.isDigit = true) (cs : List Char) :
    operand filter size (bs ++ d :: cs) = number (d :: cs) := by
  have hquote : ¬isQuote d = true := by
    simp only [isQuote, Bool.or_eq_true, decide_eq_true_eq]
    rintro (rfl | rfl) <;> cases hd
  rw [operand, bind_eq_of_ok (skipBlanks_append hbs (not_blank_of_isDigit hd) cs),
    bind_eq_of_ok (show peek? (d :: cs) = .ok (some d, d :: cs) from rfl)]
  refine congrFun ?_ (d :: cs)
  split <;> rename_i heq <;> cases heq
  case h_5 => rw [if_neg hquote, if_pos (by rw [hd]; rfl)]
  all_goals cases hd

/-- No number goes on where an operand ends. -/
theorem EndsOperand.not_isNumberChar (htail : EndsOperand tail) :
    ∀ c, tail.head? = some c → isNumberChar c = false := by
  obtain ⟨d, rest, rfl, hd⟩ := htail
  intro c hc
  obtain rfl : d = c := Option.some.inj hc
  rcases hd with rfl | rfl <;> decide

/-- Makes a constant of the text of a number. -/
def literal (text : String) : Read Operand :=
  match Json.parse text with
  | .ok j => if j.number?.isSome then pure (.literal j) else fail (.badNumber text)
  | .error _ => fail (.badNumber text)

theorem literal_of_parse {s : String} {j : Json} (h : Json.parse s = .ok j)
    (hj : j.number?.isSome = true) (cs : List Char) : literal s cs = .ok (.literal j, cs) := by
  rw [literal, h]
  dsimp only
  rw [if_pos hj]
  rfl

theorem literal_of_error {s : String} {e : Json.ReadError} (h : Json.parse s = .error e)
    (cs : List Char) : literal s cs = .error ⟨.badNumber s, cs.length⟩ := by
  rw [literal, h]
  rfl

/-- The characters of a number after its sign are taken to their end. -/
theorem number_append (minus : Bool) {cs rest : List Char}
    (hcs : ∀ c ∈ cs, isNumberChar c = true)
    (hrest : ∀ c, rest.head? = some c → isNumberChar c = false)
    (hhead : (cs ++ rest).head? ≠ some '-') :
    number ((if minus then '-' :: cs else cs) ++ rest) =
      literal (String.ofList (if minus then '-' :: cs else cs)) rest := by
  have hsign : sign ['-'] ((if minus then '-' :: cs else cs) ++ rest) =
      .ok (minus, cs ++ rest) := by
    cases minus with
    | true => exact sign_append ['-'] (cs ++ rest)
    | false =>
      refine sign_false fun ⟨after, hafter⟩ => hhead ?_
      exact congrArg List.head? hafter.symm
  have htake : Read.takeWhile isNumberChar (cs ++ rest) = .ok (cs, rest) := by
    obtain ⟨htake, hdrop⟩ := takeWhile_append_eq hcs hrest
    rw [Read.takeWhile, htake, hdrop]
  rw [number, bind_eq_of_ok hsign, bind_eq_of_ok htake]
  rfl

/-- A whole number is read from its decimal text. -/
theorem number_toString {n : Int} (hmin : -2 ^ 63 ≤ n) (hmax : n < 2 ^ 64)
    (htail : EndsOperand tail) :
    number ((toString n).toList ++ tail) = .ok (.literal (.int n), tail) := by
  have htext : (toString n).toList =
      if decide (n < 0) = true then '-' :: Nat.toDigits 10 n.natAbs
      else Nat.toDigits 10 n.natAbs := by
    rw [toList_toString_int]
    simp only [decide_eq_true_eq]
  have hparse := Json.parse_toString hmin hmax
  rw [← String.ofList_toList (s := toString n), htext] at hparse
  obtain ⟨c, rest, hdigits, hc⟩ := toDigits_head n.natAbs
  have hhead : (Nat.toDigits 10 n.natAbs ++ tail).head? ≠ some '-' := by
    rw [hdigits]
    rintro ⟨⟩
    cases hc
  have hchars (c : Char) (hc : c ∈ Nat.toDigits 10 n.natAbs) : isNumberChar c = true := by
    rw [isNumberChar, isDigit_of_mem_toDigits hc]
    rfl
  rw [htext, number_append _ hchars htail.not_isNumberChar hhead, literal_of_parse hparse rfl]

/-- Words stand for truth values and for nothing. -/
theorem operand_word {j : Json} (hj : j = .null ∨ j = .bool true ∨ j = .bool false)
    (hbs : Blanks bs) (htail : EndsOperand tail) :
    operand filter size (bs ++ (constantText j ++ tail)) = .ok (.literal j, tail) := by
  obtain ⟨c, rest, rfl, hc⟩ := htail
  rw [operand]
  rcases hj with rfl | rfl | rfl <;>
    rw [constantText, List.cons_append, bind_eq_of_ok (skipBlanks_append hbs rfl _)] <;>
    rcases hc with rfl | rfl <;> rfl

/-- A number begins with a minus or a digit, and so it is taken for one. -/
theorem operand_toString (hbs : Blanks bs) (n : Int) (cs : List Char) :
    operand filter size (bs ++ ((toString n).toList ++ cs)) =
      number ((toString n).toList ++ cs) := by
  rw [toList_toString_int]
  split
  · exact operand_minus hbs _
  · obtain ⟨c, rest, hcs, hc⟩ := toDigits_head n.natAbs
    rw [hcs]
    exact operand_digit hbs hc _

theorem starts_toString (n : Int) :
    ∃ d rest, (toString n).toList = d :: rest ∧ isBlank d = false ∧ d ∉ ['!', '(', '='] := by
  rw [toList_toString_int]
  split
  · exact ⟨'-', _, rfl, rfl, by decide⟩
  · obtain ⟨c, rest, hcs, hc⟩ := toDigits_head n.natAbs
    refine ⟨c, rest, hcs, not_blank_of_isDigit hc, fun hmem => ?_⟩
    simp only [List.mem_cons, List.not_mem_nil, or_false] at hmem
    rcases hmem with rfl | rfl | rfl <;> cases hc

/-- The constants that can be written are read. -/
theorem ReadsOperand.literal {j : Json} (hj : IsPlainConstant j) : ReadsOperand (.literal j) := by
  have hquoted (s : String) (l : Nat) {bs tail : List Char} (hbs : Blanks bs) :
      operand (filterUpTo l) (l + 1) (bs ++ (quotedText s ++ tail)) =
        .ok (.literal (.string s), tail) := by
    rw [operand, quotedText, List.cons_append, bind_eq_of_ok (skipBlanks_append hbs rfl _)]
    change (quoted '\'' >>= fun s => pure (Operand.literal (.string s))) (quotedText s ++ tail) = _
    rw [bind_eq_of_ok (quoted_quotedText s tail)]
    rfl
  cases j with
  | null =>
    exact ⟨⟨'n', _, rfl, rfl, by decide⟩, fun _ _ _ _ => operand_word (.inl rfl)⟩
  | bool b =>
    cases b with
    | true =>
      exact ⟨⟨'t', _, rfl, rfl, by decide⟩, fun _ _ _ _ => operand_word (.inr (.inl rfl))⟩
    | false =>
      exact ⟨⟨'f', _, rfl, rfl, by decide⟩, fun _ _ _ _ => operand_word (.inr (.inr rfl))⟩
  | int n =>
    exact ⟨starts_toString n, fun l bs tail _ hbs htail =>
      (operand_toString hbs n tail).trans (number_toString hj.1 hj.2 htail)⟩
  | string s =>
    exact ⟨⟨'\'', _, rfl, rfl, by decide⟩, fun l bs tail _ hbs _ => hquoted s l hbs⟩
  | float x => exact hj.elim
  | array items => exact hj.elim
  | object fields => exact hj.elim

/-- A path after its first sign is read from its text. -/
def ReadsRoute (r : Route) : Prop :=
  ∀ ⦃l : Nat⦄ ⦃tail : List Char⦄, r.text.length ≤ l → EndsOperand tail →
    Read.route true (filterUpTo l) (l + 1) (r.text ++ tail) = .ok (r, tail)

/-- A path after the sign of its root. -/
theorem ReadsRoute.operand {r : Route} (h : ReadsRoute r) (fromRoot : Bool) :
    ReadsOperand (.path fromRoot r) := by
  cases fromRoot with
  | true =>
    refine ⟨⟨'$', _, rfl, rfl, by decide⟩, fun l bs tail hl hbs htail => ?_⟩
    have hread := h (Nat.le_of_succ_le_succ hl) htail
    rw [Operand.text, if_pos rfl, List.cons_append, Read.operand,
      bind_eq_of_ok (skipBlanks_append hbs rfl _)]
    change (Read.route true (filterUpTo l) (l + 1) >>= fun r => pure (Operand.path true r))
      (r.text ++ tail) = _
    rw [bind_eq_of_ok hread]
    rfl
  | false =>
    refine ⟨⟨'@', _, rfl, rfl, by decide⟩, fun l bs tail hl hbs htail => ?_⟩
    have hread := h (Nat.le_of_succ_le_succ hl) htail
    rw [Operand.text, if_neg (by decide), List.cons_append, Read.operand,
      bind_eq_of_ok (skipBlanks_append hbs rfl _)]
    change (Read.route true (filterUpTo l) (l + 1) >>= fun r => pure (Operand.path false r))
      (r.text ++ tail) = _
    rw [bind_eq_of_ok hread]
    rfl

/-! ### Comparisons and presence -/

theorem comparison?_sign (op : CompareOp) (rest : List Char) :
    comparison? comparisons (op.sign ++ ' ' :: rest) = .ok (some (some op), ' ' :: rest) := by
  cases op <;> rfl

theorem CompareOp.dropWhile_sign (op : CompareOp) (rest : List Char) :
    (' ' :: (op.sign ++ rest)).dropWhile isBlank = op.sign ++ rest := by
  cases op <;> rfl

/-- A text that begins like an operand is no negation and stands in no parentheses. -/
theorem negations_operand {o : Operand} (ho : ReadsOperand o) (hbs : Blanks bs) :
    negations filter size (limit + 1) (bs ++ (o.text ++ cs)) =
      comparison filter size (o.text ++ cs) := by
  obtain ⟨d, rest, htext, hblank, hd⟩ := ho.starts
  rw [htext, List.cons_append]
  refine negations_comparison hbs hblank ?_ ?_ <;> rintro rfl <;> exact hd (by decide)

theorem ReadsOperand.starts_append {o : Operand} (ho : ReadsOperand o) (cs : List Char) :
    Starts (o.text ++ cs) := by
  obtain ⟨d, rest, htext, -, hd⟩ := ho.starts
  rw [htext]
  refine ⟨d, rest ++ cs, rfl, ?_⟩
  rintro rfl
  exact hd (by decide)

/-- Two operands with the sign of a comparison between them. -/
theorem ReadsFilter.compare {left right : Operand} (op : CompareOp) (hleft : ReadsOperand left)
    (hright : ReadsOperand right) : ReadsFilter (.compare left op right) := by
  refine ReadsUnary.readsFilter ?_ rfl (hleft.starts_append _)
  intro l limit tail hl hlimit htail bs hbs
  have htext : (Filter.compare left op right).text = around op.sign left.text right.text := rfl
  rw [htext, around] at hl hlimit ⊢
  simp only [List.length_append, List.length_cons] at hl hlimit
  obtain ⟨limit, rfl⟩ : ∃ n, limit = n + 1 := ⟨limit - 1, by omega⟩
  have hfirst := hleft.reads (l := l) (by omega) (List.forall_mem_nil _)
    (.blank (op.sign ++ ' ' :: (right.text ++ tail)))
  have hskip : skipBlanks (' ' :: (op.sign ++ ' ' :: (right.text ++ tail))) =
      .ok ((), op.sign ++ ' ' :: (right.text ++ tail)) := by
    rw [skipBlanks, op.dropWhile_sign]
  have hblank : Blanks [' '] := List.forall_mem_singleton.mpr rfl
  have hsecond := hright.reads (l := l) (by omega) hblank htail.endsOperand
  rw [List.nil_append] at hfirst
  refine ⟨tail, ?_, rfl⟩
  rw [List.append_assoc, List.cons_append, List.append_assoc, List.cons_append,
    negations_operand hleft hbs, comparison, bind_eq_of_ok hfirst, bind_eq_of_ok hskip,
    bind_eq_of_ok (comparison?_sign op _)]
  exact bind_eq_of_ok hsecond _

/-- A path alone asks for its presence. -/
theorem ReadsFilter.present {r : Route} {fromRoot : Bool}
    (h : ReadsOperand (.path fromRoot r)) : ReadsFilter (.present (.path fromRoot r)) := by
  refine ReadsUnary.readsFilter ?_ rfl ?_
  · intro l limit tail hl hlimit htail bs hbs
    have htext : (Filter.present (.path fromRoot r)).text = (Operand.path fromRoot r).text := rfl
    have hread := h.reads hl (List.forall_mem_nil _) htail.endsOperand
    rw [htext] at hl hlimit ⊢
    rw [List.nil_append] at hread
    obtain ⟨limit, rfl⟩ : ∃ n, limit = n + 1 := Nat.exists_eq_add_one_of_ne_zero fun hzero => by
      rw [hzero] at hlimit
      exact absurd hlimit (by simp [Operand.text])
    refine ⟨tail.dropWhile isBlank, ?_, List.dropWhile_idempotent _ _⟩
    rw [negations_operand h hbs, comparison, bind_eq_of_ok hread,
      bind_eq_of_ok (show skipBlanks tail = .ok ((), tail.dropWhile isBlank) from rfl),
      bind_eq_of_ok htail.comparison?]
    rfl
  · have hstarts := h.starts_append []
    rwa [List.append_nil] at hstarts

end GatewayMapping.JsonPath
