import GatewayMapping.Proofs.Reading.Leftover

/-!
# The parts of directives

All directives are read alike: a word, the arguments that the word asks for, and the end of the
line if the directive stands alone on it. Then a directive adds a node to its block, or it reads
the blocks that it opens, or it ends its block. Here the readers are cut at these places.

## Main definitions

* `Grammar.Head`: what is read of a directive before the end of its line.
* `Grammar.head`, `Grammar.proceed`: the readers of what stands before and after the end of the
  line.
* `Grammar.afterBody`, `Grammar.afterLastBody`, `Grammar.afterLoopBody`: the readers of what follows
  the first block that a directive opens.
* `Grammar.Mark`: what begins with a `#`.
* `Grammar.DirectiveAt`: a directive up to the end of its line.

## Main results

* `Grammar.directive_eq`, `Grammar.hash_eq`: the readers are made of their parts.
* `Grammar.directive?_eq_some_iff`: how a directive begins.
-/

namespace GatewayMapping.Template.Grammar

/-- What stands between the word of a directive and the end of its line. -/
def Head : Directive → Type
  | .assign => Reference × Expr
  | .forEach => String × Expr
  | .ifThen | .elseIf | .parse | .insert => Expr
  | .otherwise | .finish | .leave | .stop => Unit

/-- Reads the arguments of a directive. -/
def head (inner : Inner) : (word : Directive) → Read (Head word)
  | .assign => assignment inner
  | .forEach => loopHead inner
  | .ifThen => argument inner .ifThen
  | .elseIf => argument inner .elseIf
  | .parse => argument inner .parse
  | .insert => argument inner .insert
  | .otherwise | .finish | .leave | .stop => return ()

/-- Reads what follows the target of an assignment, by the characters that are left. -/
def afterTarget (inner : Inner) (target : Reference) : List Char → Read (Reference × Expr)
  | '=' :: '=' :: _ => Read.unexpected .assignSign
  | '=' :: _ => do
    Read.skip 1
    let value ← inner.expr
    closeParen
    return (target, value)
  | _ => Read.unexpected .assignSign

theorem assignment_eq (inner : Inner) : assignment inner = (do
    openParen .assign
    Read.skipBlanks
    let target ← reference inner
    Read.skipBlanks
    afterTarget inner target (← Read.rest)) := rfl

/-- Reads what follows the line of a directive, which began at `position`. -/
def proceed (inner : Inner) (position : Position) (d : Draft) :
    (word : Directive) → Head word → Read Step
  | .assign, (target, value) => return .goOn (d.add (.assign target value position))
  | .ifThen, condition => do
    let (bodies, last) ← branches inner position (inner.limit + 1) condition
    return .goOn (d.add (.conditional bodies last position))
  | .elseIf, condition => return .done ⟨d.finish, .elseIf condition position⟩
  | .otherwise, _ => return .done ⟨d.finish, .otherwise position⟩
  | .finish, _ => return .done ⟨d.finish, .finish position⟩
  | .forEach, (loopVariable, items) => do
    let body ← loopBody inner position
    return .goOn (d.add (.forEach loopVariable items body position))
  | .leave, _ => return .goOn (d.add (.leave position))
  | .stop, _ => return .goOn (d.add (.stop position))
  | .parse, name => return .goOn (d.add (.parse name position))
  | .insert, name => return .goOn (d.add (.insert name position))

theorem directive_eq (inner : Inner) (position : Position) (indent : Option Nat) (d : Draft)
    (word : Directive) : directive inner position indent d word = (do
      let h ← head inner word
      let d ← Read.gobble indent d
      proceed inner position d word h) := by
  cases word <;> rfl

theorem proceed_ifThen (inner : Inner) (position : Position) (d : Draft)
    (condition : Head .ifThen) :
    proceed inner position d .ifThen condition =
      branches inner position (inner.limit + 1) condition >>= fun p =>
        return .goOn (d.add (.conditional p.1 p.2 position)) := rfl

theorem proceed_forEach (inner : Inner) (position : Position) (d : Draft) (p : Head .forEach) :
    proceed inner position d .forEach p =
      loopBody inner position >>= fun body =>
        return .goOn (d.add (.forEach p.1 p.2 body position)) := rfl

/-! ### Bodies -/

/-- Reads what follows the last body of a condition. -/
def afterLastBody (opened : Position) (condition : Expr) (body : List Node) (last : Block) :
    Read (List (Expr × List Node) × Option (List Node)) :=
  match last.ending with
  | .endOfText => unfinished .ifThen opened
  | .finish _ => return ([(condition, body)], some last.nodes)
  | .otherwise position | .elseIf _ position => Read.failAt position .secondOtherwise

/-- Reads what follows a body of a condition that another one may follow. -/
def afterBody (inner : Inner) (opened : Position) (limit : Nat) (condition : Expr) (body : Block) :
    Read (List (Expr × List Node) × Option (List Node)) :=
  match body.ending with
  | .endOfText => unfinished .ifThen opened
  | .finish _ => return ([(condition, body.nodes)], none)
  | .elseIf next _ => do
    let (more, last) ← branches inner opened limit next
    return ((condition, body.nodes) :: more, last)
  | .otherwise _ => do
    afterLastBody opened condition body.nodes (← inner.block)

/-- Reads what follows the body of a loop. -/
def afterLoopBody (opened : Position) (body : Block) : Read (List Node) :=
  match body.ending with
  | .endOfText => unfinished .forEach opened
  | .finish _ => return body.nodes
  | .otherwise position | .elseIf _ position => Read.failAt position .otherwiseInLoop

theorem branches_succ (inner : Inner) (opened : Position) (limit : Nat) (condition : Expr) :
    branches inner opened (limit + 1) condition =
      inner.block >>= afterBody inner opened limit condition := rfl

theorem loopBody_eq (inner : Inner) (opened : Position) :
    loopBody inner opened = inner.block >>= afterLoopBody opened := rfl

/-- What follows a body that has been read. -/
theorem branches_of_body {inner : Inner} {body : Block} {cur cur' : Cursor}
    (hbody : inner.block cur = .ok (body, cur')) (opened : Position) (limit : Nat)
    (condition : Expr) :
    branches inner opened (limit + 1) condition cur =
      afterBody inner opened limit condition body cur' := by
  change (inner.block cur >>= fun p => afterBody inner opened limit condition p.1 p.2) = _
  rw [hbody]
  rfl

/-! ### What begins with `#` -/

/-- What begins with a `#`. -/
inductive Mark where
  | lineComment
  | blockComment
  | verbatim
  | directive (word : Directive) (length : Nat)
  | text

/-- What begins with a `#`, by what follows the `#`. -/
def mark (cs : List Char) : Mark :=
  match cs with
  | '#' :: _ => .lineComment
  | '*' :: _ => .blockComment
  | '[' :: '[' :: _ => .verbatim
  | cs =>
    match directive? cs with
    | some (word, length) => .directive word length
    | none => .text

/-- Reads what begins with `#`. -/
def marked (inner : Inner) (d : Draft) : Mark → Read Step
  | .lineComment => return .goOn (← lineComment d)
  | .blockComment => return .goOn (← blockComment d)
  | .verbatim => return .goOn (← verbatim d)
  | .directive word length => do
    let start ← get
    Read.skip (length + 1)
    directive inner start.position start.indent d word
  | .text => do
    Read.skip 1
    return .goOn (d.push '#')

theorem hash_eq (inner : Inner) (d : Draft) (cur : Cursor) :
    hash inner d cur = marked inner d (mark cur.rest.tail) cur := by
  change (match cur.rest.tail with
    | '#' :: _ => _
    | '*' :: _ => _
    | '[' :: '[' :: _ => _
    | cs => _ : Read Step) cur = _
  generalize cur.rest.tail = cs
  unfold mark
  split
  · rfl
  · rfl
  · rfl
  · cases directive? cs <;> rfl

theorem mark_eq_directive_iff {cs : List Char} {word : Directive} {n : Nat} :
    mark cs = .directive word n ↔ directive? cs = some (word, n) := by
  unfold mark
  split
  · exact iff_of_false nofun nofun
  · exact iff_of_false nofun nofun
  · exact iff_of_false nofun nofun
  · cases directive? cs with
    | none => exact iff_of_false nofun nofun
    | some p =>
      obtain ⟨word', n'⟩ := p
      constructor
      · rintro ⟨⟩
        rfl
      · rintro ⟨⟩
        rfl

/-- Reads one part of a block, by the character it begins with. -/
def part (inner : Inner) (d : Draft) : Option Char → Read Step
  | none => return .done ⟨d.finish, .endOfText⟩
  | some '\\' => return .goOn (← escape d)
  | some '$' => do
    match ← reference? inner with
    | some r => return .goOn (d.add (.reference r))
    | none =>
      Read.skip 1
      return .goOn (d.push '$')
  | some '#' => hash inner d
  | some c => do
    Read.skip 1
    return .goOn (d.push c)

theorem step_eq (inner : Inner) (d : Draft) (cur : Cursor) :
    step inner d cur = part inner d cur.rest.head? cur := rfl

/-! ### Directives -/

/-- A directive with the head `p` begins at `cur`, and what follows its line begins at `cur'`, where
the block goes on with `d'`. -/
def DirectiveAt (inner : Inner) (d : Draft) (cur : Cursor) (word : Directive) (p : Head word)
    (d' : Draft) (cur' : Cursor) : Prop :=
  ∃ cs n cur₁, cur.rest = '#' :: cs ∧ directive? cs = some (word, n) ∧
    head inner word (cur.skip (n + 1)) = .ok (p, cur₁) ∧
      Read.gobble cur.indent d cur₁ = .ok (d', cur')

theorem marked_directive (inner : Inner) (d : Draft) (word : Directive) (n : Nat) (cur : Cursor) :
    marked inner d (.directive word n) cur = (do
      let h ← head inner word
      let d ← Read.gobble cur.indent d
      proceed inner cur.position d word h : Read Step) (cur.skip (n + 1)) := by
  rw [← directive_eq]
  rfl

theorem marked_directive_eq_ok_iff {inner : Inner} {d : Draft} {word : Directive} {n : Nat}
    {cur cur' : Cursor} {s : Step} {cs : List Char} (hcur : cur.rest = '#' :: cs)
    (hword : directive? cs = some (word, n)) :
    marked inner d (.directive word n) cur = .ok (s, cur') ↔
      ∃ p d₁ cur₁, DirectiveAt inner d cur word p d₁ cur₁ ∧
        proceed inner cur.position d₁ word p cur₁ = .ok (s, cur') := by
  simp only [marked_directive, Read.bind_eq_ok_iff]
  constructor
  · rintro ⟨p, cur₁, hhead, d₁, cur₂, hgobble, hr⟩
    exact ⟨p, d₁, cur₂, ⟨cs, n, cur₁, hcur, hword, hhead, hgobble⟩, hr⟩
  · rintro ⟨p, d₁, cur₂, ⟨cs', n', cur₁, hcur', hword', hhead, hgobble⟩, hr⟩
    obtain rfl := (List.cons.inj (hcur.symm.trans hcur')).2
    cases hword.symm.trans hword'
    exact ⟨p, cur₁, hhead, d₁, cur₂, hgobble, hr⟩

/-- A directive goes on after its line. -/
theorem DirectiveAt.hash_eq {inner : Inner} {d d' : Draft} {cur cur' : Cursor} {word : Directive}
    {p : Head word} (h : DirectiveAt inner d cur word p d' cur') :
    hash inner d cur = proceed inner cur.position d' word p cur' := by
  obtain ⟨cs, n, cur₁, hcur, hword, hhead, hgobble⟩ := h
  have hbind {α β : Type} {x : Read α} {f : α → Read β} {cur cur' : Cursor} {a : α}
      (hx : x cur = .ok (a, cur')) : (x >>= f) cur = f a cur' := by
    change (x cur >>= fun p => f p.1 p.2) = _
    rw [hx]
    rfl
  rw [Grammar.hash_eq, hcur, List.tail_cons, mark_eq_directive_iff.mpr hword, marked_directive,
    hbind hhead, hbind hgobble]

theorem DirectiveAt.step_eq {inner : Inner} {d d' : Draft} {cur cur' : Cursor} {word : Directive}
    {p : Head word} (h : DirectiveAt inner d cur word p d' cur') :
    step inner d cur = proceed inner cur.position d' word p cur' := by
  rw [← h.hash_eq]
  obtain ⟨cs, n, cur₁, hcur, -⟩ := h
  rw [Grammar.step_eq, hcur]
  rfl

/-! ### Ends of lines and comments -/

theorem gobble_eq_ok_iff {indent : Option Nat} {d d' : Draft} {cur cur' : Cursor} :
    Read.gobble indent d cur = .ok (d', cur') ↔
      (∃ n count, indent = some n ∧ blankLineEnd? cur.rest = some count ∧
        d' = d.trimIndent n ∧ cur' = cur.skip count) ∨
      ((indent = none ∨ blankLineEnd? cur.rest = none) ∧ d' = d ∧ cur' = cur) := by
  constructor
  · intro hr
    obtain ⟨_, _, ⟨⟩, hr⟩ := Read.bind_eq_ok_iff.mp hr
    cases indent with
    | none =>
      cases hr
      exact .inr ⟨.inl rfl, rfl, rfl⟩
    | some n =>
      cases hcount : blankLineEnd? cur.rest with
      | some count =>
        rw [hcount] at hr
        cases hr
        exact .inl ⟨n, count, rfl, rfl, rfl, rfl⟩
      | none =>
        rw [hcount] at hr
        cases hr
        exact .inr ⟨.inr rfl, rfl, rfl⟩
  · rintro (⟨n, count, rfl, hcount, rfl, rfl⟩ | ⟨hnone, rfl, rfl⟩)
    · refine Read.bind_eq_ok_iff.mpr ⟨cur.rest, cur, rfl, ?_⟩
      rw [hcount]
      rfl
    · refine Read.bind_eq_ok_iff.mpr ⟨cur'.rest, cur', rfl, ?_⟩
      obtain rfl | hnone := hnone
      · rfl
      · rw [hnone]
        cases indent <;> rfl

theorem blockComment_eq_ok_iff {d d' : Draft} {cur cur' : Cursor} :
    blockComment d cur = .ok (d', cur') ↔
      ∃ n, Text.indexOf? ['*', '#'] (cur.rest.drop 2) = some n ∧
        Read.gobble cur.indent d (cur.skip (n + 4)) = .ok (d', cur') := by
  constructor
  · intro hr
    obtain ⟨_, _, ⟨⟩, hr⟩ := Read.bind_eq_ok_iff.mp hr
    obtain ⟨_, _, ⟨⟩, hr⟩ := Read.bind_eq_ok_iff.mp hr
    cases hfound : Text.indexOf? ['*', '#'] (cur.rest.drop 2) with
    | some n =>
      rw [hfound] at hr
      exact ⟨n, rfl, hr⟩
    | none =>
      rw [hfound] at hr
      cases hr
  · rintro ⟨n, hfound, hr⟩
    refine Read.bind_eq_ok_iff.mpr ⟨cur, cur, rfl, ?_⟩
    refine Read.bind_eq_ok_iff.mpr ⟨cur.rest, cur, rfl, ?_⟩
    rw [hfound]
    exact hr

theorem verbatim_eq_ok_iff {d d' : Draft} {cur cur' : Cursor} :
    verbatim d cur = .ok (d', cur') ↔
      ∃ n, Text.indexOf? [']', ']', '#'] (cur.rest.drop 3) = some n ∧
        d' = d.append ((cur.rest.drop 3).take n) ∧ cur' = cur.skip (n + 6) := by
  constructor
  · intro hr
    obtain ⟨_, _, ⟨⟩, hr⟩ := Read.bind_eq_ok_iff.mp hr
    cases hfound : Text.indexOf? [']', ']', '#'] (cur.rest.drop 3) with
    | some n =>
      rw [hfound] at hr
      cases hr
      exact ⟨n, rfl, rfl, rfl⟩
    | none =>
      rw [hfound] at hr
      cases hr
  · rintro ⟨n, hfound, rfl, rfl⟩
    refine Read.bind_eq_ok_iff.mpr ⟨cur.rest, cur, rfl, ?_⟩
    rw [hfound]
    rfl

/-! ### Words -/

theorem ofWord?_eq_some_iff {cs : List Char} {word : Directive} :
    Directive.ofWord? cs = some word ↔ word.word = cs := by
  constructor
  · intro h
    have hfound := List.find?_some h
    exact of_decide_eq_true hfound
  · rintro rfl
    cases word <;> rfl

theorem isAlpha_of_mem_word {word : Directive} : ∀ c ∈ word.word, c.isAlpha = true := by
  cases word <;> exact List.all_eq_true.mp rfl

/-- The letters at the beginning of a text that goes on otherwise. -/
theorem takeWhile_word {word : Directive} {rest : List Char}
    (hrest : ∀ c ∈ rest.head?, c.isAlpha = false) :
    (word.word ++ rest).takeWhile Char.isAlpha = word.word := by
  have hnone : rest.takeWhile Char.isAlpha = [] := by
    cases rest with
    | nil => rfl
    | cons c rest => exact List.takeWhile_cons_of_neg (by simp [hrest c rfl])
  rw [List.takeWhile_append_of_pos isAlpha_of_mem_word, hnone, List.append_nil]

/-- The word of a directive stands alone or in braces. -/
theorem directive?_eq_some_iff {cs : List Char} {word : Directive} {n : Nat} :
    directive? cs = some (word, n) ↔
      (∃ rest, cs = word.word ++ rest ∧ n = word.word.length ∧
        ∀ c ∈ rest.head?, c.isAlpha = false) ∨
      ∃ rest, cs = '\x7b' :: (word.word ++ '\x7d' :: rest) ∧ n = word.word.length + 2 := by
  constructor
  · intro h
    simp only [directive?] at h
    by_cases hbraced : cs.head? = some '\x7b'
    · obtain ⟨cs, rfl⟩ := List.head?_eq_some_iff.mp hbraced
      simp only [List.head?_cons, if_true, decide_true, Bool.true_and, List.tail_cons,
        Option.ite_none_left_eq_some, Option.map_eq_some_iff, ofWord?_eq_some_iff] at h
      obtain ⟨hclose, d, hd, heq⟩ := h
      cases heq
      have hhead := Decidable.of_not_not (mt decide_eq_true hclose)
      obtain ⟨rest, hrest⟩ := List.head?_eq_some_iff.mp hhead
      obtain ⟨back, hback⟩ := List.takeWhile_prefix Char.isAlpha (l := cs)
      refine .inr ⟨rest, ?_, by rw [hd]⟩
      rw [← hd] at hback hrest
      rw [← hback, List.drop_left] at hrest
      rw [← hrest, hback]
    · simp only [hbraced, decide_false, Bool.false_and, if_false, Bool.false_eq_true,
        Option.map_eq_some_iff, ofWord?_eq_some_iff] at h
      obtain ⟨d, hd, heq⟩ := h
      cases heq
      refine .inl ⟨cs.dropWhile Char.isAlpha, ?_, by rw [hd]; rfl, fun c hc => ?_⟩
      · rw [hd, List.takeWhile_append_dropWhile]
      · have hnot := List.head?_dropWhile_not Char.isAlpha cs
        rw [hc] at hnot
        exact hnot
  · rintro (⟨rest, rfl, rfl, hrest⟩ | ⟨rest, rfl, rfl⟩)
    · have hhead : (word.word ++ rest).head? ≠ some '\x7b' := by cases word <;> nofun
      simp only [directive?, hhead, decide_false, Bool.false_and, if_false, takeWhile_word hrest,
        ofWord?_eq_some_iff.mpr rfl]
      rfl
    · have hrest : ∀ c ∈ ('\x7d' :: rest).head?, c.isAlpha = false := by
        rintro _ ⟨⟩
        rfl
      simp only [directive?, List.head?_cons, decide_true, if_true, List.tail_cons,
        takeWhile_word hrest, List.drop_left, ofWord?_eq_some_iff.mpr rfl]
      rfl
end GatewayMapping.Template.Grammar
