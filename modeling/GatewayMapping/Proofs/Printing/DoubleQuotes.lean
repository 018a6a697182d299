import GatewayMapping.Proofs.Printing.NodesReading

/-!
# Templates in double quotes

A source in double quotes, with every double quote of it doubled, is a template inside a template:
the content of the quotes is read as a block of its own, at another place and with fewer characters
left over than the quotes had (`nodesAt_relocated`). A content without `$` and `#` is kept as it
stands, which is how it would be read (`nodesAt_plain`).

Here is the reading of a source that assigns such quotes to a variable and ends with the variable.

## Main definitions

* `nodesAt`, `quotedExpr`: what is read of a text somewhere in a source, and of quotes around it.
* `quotedSource`: the source with a source in double quotes.

## Main results

* `parse_quotedSource`: how such a source is read.
-/

namespace GatewayMapping.Template

open Read (Yields bind_eq_ok_iff)
open Grammar

/-! ### Where an expression ends -/

/-- A closing parenthesis begins no operator. -/
theorem binaryOp?_of_paren {cur : Cursor} {cs : List Char} (hcur : cur.rest = ')' :: cs) :
    (ops : List BinaryOp) → binaryOp? ops cur = .ok (none, cur)
  | [] => rfl
  | op :: ops => by
      have hops := binaryOp?_of_paren hcur ops
      obtain ⟨rest, position, indent⟩ := cur
      obtain rfl : rest = ')' :: cs := hcur
      cases op <;> exact hops

theorem chain_of_paren {cur : Cursor} {cs : List Char} (hcur : cur.rest = ')' :: cs)
    (operand : Read Expr) (ops : List BinaryOp) (limit : Nat) (left : Expr) :
    chain operand ops limit left cur = .ok (left, cur) := by
  cases limit with
  | zero => rfl
  | succ limit =>
    have hnone := binaryOp?_of_paren hcur ops
    obtain ⟨rest, position, indent⟩ := cur
    obtain rfl : rest = ')' :: cs := hcur
    refine bind_eq_ok_iff.mpr ⟨(), _, rfl, bind_eq_ok_iff.mpr ⟨position, _, rfl, ?_⟩⟩
    exact bind_eq_ok_iff.mpr ⟨none, _, hnone, rfl⟩

/-- Before a closing parenthesis an operand is all that is read, at every level. -/
theorem levels_of_paren {inner : Inner} {limit : Nat} {e : Expr} {cur cur' : Cursor}
    {cs : List Char} (h : unary inner limit cur = .ok (e, cur')) (hcur' : cur'.rest = ')' :: cs) :
    (levels : List (List BinaryOp)) →
      levels.foldr (level limit) (unary inner limit) cur = .ok (e, cur')
  | [] => h
  | _ :: levels =>
      bind_eq_ok_iff.mpr ⟨e, cur', levels_of_paren h hcur' levels, chain_of_paren hcur' _ _ _ _⟩

theorem levels_of_error {inner : Inner} {limit : Nat} {cur : Cursor} {err : SyntaxError}
    (h : unary inner limit cur = .error err) : (levels : List (List BinaryOp)) →
      levels.foldr (level limit) (unary inner limit) cur = .error err
  | [] => h
  | _ :: levels => bind_eq_of_error (levels_of_error h levels) _

/-! ### The content of double quotes -/

/-- The nodes of a text that stands at a place, up to its end. -/
def nodesAt (inner : Inner) (cs : List Char) (base : Position) :
    Except SyntaxError (List Node) := do
  let (block, _) ← inner.block.run (.ofChars cs base)
  block.whole

theorem parse_eq_nodesAt (source : String) :
    parse source = nodesAt (Inner.upTo source.toList.length) source.toList .start := rfl

/-- The same nodes are read at any place, whatever stands after the text in the source. -/
theorem nodesAt_relocated {n m : Nat} {cs : List Char} (hn : cs.length ≤ n) (hm : cs.length ≤ m)
    (base base' : Position) {ns : List Node} (h : nodesAt (Inner.upTo n) cs base = .ok ns) :
    ∃ ns', nodesAt (Inner.upTo m) cs base' = .ok ns' ∧
      ns.map (Node.unplaced id) = ns'.map (Node.unplaced id) := by
  have hagree := (Inner.upTo_agree hn hm).block (.ofChars cs base) (Nat.le_refl _)
  have hext : (Cursor.ofChars cs base).Extends [] [] True (.ofChars cs base') :=
    .of_append (List.append_nil cs).symm fun _ => rfl
  rw [nodesAt, StateT.run, hagree] at h
  cases hblock : (Inner.upTo m).block (.ofChars cs base) with
  | error e =>
    rw [hblock] at h
    cases h
  | ok p =>
    obtain ⟨b, cur⟩ := p
    rw [hblock] at h
    obtain ⟨b', cur', hblock', hb, -⟩ :=
      (Inner.upTo_tracks id m).block.follows hext hblock (.inl ⟨rfl, rfl⟩)
    obtain ⟨ns', hwhole, hns⟩ := Block.whole_eq_ok hb h
    refine ⟨ns', ?_, hns⟩
    rw [nodesAt, StateT.run, hblock']
    exact hwhole

/-- A text in which no reference, directive or comment begins is written as it stands. -/
theorem escaped_of_plain : (cs : List Char) → (∀ c ∈ cs, isMark c = false) → (run : Nat) →
    escaped false run cs = List.replicate run '\\' ++ cs
  | [], _, run => (List.append_nil _).symm
  | c :: cs, h, run => by
      obtain ⟨hc, hcs⟩ := List.forall_mem_cons.mp h
      rw [escaped]
      split
      · rename_i hslash
        rw [escaped_of_plain cs hcs, List.replicate_succ', List.append_assoc, hslash]
        rfl
      · rw [hc, if_neg Bool.false_ne_true, escaped_of_plain cs hcs]
        rfl

/-- Limits that suffice for a text give the same. -/
theorem nodesAt_agree {n m : Nat} {cs : List Char} (hn : cs.length ≤ n) (hm : cs.length ≤ m)
    (base : Position) : nodesAt (Inner.upTo n) cs base = nodesAt (Inner.upTo m) cs base := by
  rw [nodesAt, nodesAt, StateT.run, StateT.run,
    (Inner.upTo_agree hn hm).block (.ofChars cs base) (Nat.le_refl _)]

theorem exists_nodesAt_of_yields {inner : Inner} {cs : List Char} {P : List Node → Prop}
    (h : Yields inner.block cs fun b _ => b.ending = .endOfText ∧ P b.nodes) (base : Position) :
    ∃ ns, nodesAt inner cs base = .ok ns ∧ P ns := by
  obtain ⟨b, cur', hblock, hending, hP⟩ := h (.ofChars cs base) rfl
  refine ⟨b.nodes, ?_, hP⟩
  rw [nodesAt, StateT.run, hblock]
  change b.whole = _
  rw [Block.whole, hending]

theorem nodesAt_of_yields {inner : Inner} {cs : List Char} {ns : List Node}
    (h : Yields inner.block cs fun b _ => b = ⟨ns, .endOfText⟩) (base : Position) :
    nodesAt inner cs base = .ok ns := by
  have hblock := h.mono fun b _ hb => (⟨hb ▸ rfl, hb ▸ rfl⟩ : b.ending = .endOfText ∧ b.nodes = ns)
  obtain ⟨_, hns, rfl⟩ := exists_nodesAt_of_yields (P := (· = ns)) hblock base
  exact hns

/-- A source is read as its block is, if that ends with the source. -/
theorem parse_of_yields {source : String} {P : List Node → Prop}
    (h : Yields (block (Inner.upTo source.toList.length)) source.toList
      fun b _ => b.ending = .endOfText ∧ P b.nodes) :
    ∃ ns, parse source = .ok ns ∧ P ns := by
  rw [parse_eq_nodesAt, nodesAt_agree (Nat.le_refl _) (Nat.le_succ _)]
  exact exists_nodesAt_of_yields h .start

/-- What is printed for the characters of a text is read as the text. -/
theorem nodesAt_escaped (cs : List Char) {n : Nat} (hn : (escaped false 0 cs).length ≤ n)
    (base : Position) :
    nodesAt (Inner.upTo (n + 1)) (escaped false 0 cs) base =
      .ok (Draft.empty.append cs).finish := by
  have hread : Yields (Inner.upTo (n + 1)).block (escaped false 0 cs ++ [])
      fun b _ => b = ⟨(Draft.empty.append cs).finish, .endOfText⟩ := by
    have hend : GoesOn false [] := rfl
    refine escaped_yields hend cs 0 ?_ fun limit _ cur hcur => ?_
    · rw [List.append_nil, Inner.limit_upTo]
      omega
    · exact ⟨_, cur, blockFrom_of_nil hcur _ limit _, rfl⟩
  rw [List.append_nil] at hread
  exact nodesAt_of_yields hread base

/-- A text in which nothing begins is read as a text. -/
theorem nodesAt_plain {cs : List Char} (h : ∀ c ∈ cs, isMark c = false) {n : Nat}
    (hn : cs.length ≤ n) (base : Position) :
    nodesAt (Inner.upTo (n + 1)) cs base = .ok (Draft.empty.append cs).finish := by
  have hcs : escaped false 0 cs = cs := escaped_of_plain cs h 0
  have hread := nodesAt_escaped cs (hcs.symm ▸ hn) base
  rwa [hcs] at hread

/-- The expression that is read from the content of double quotes. -/
def quotedExpr (inner : Inner) (cs : List Char) (base : Position) : Except SyntaxError Expr := do
  if cs.contains '$' || cs.contains '#' then return .interpolated (← nodesAt inner cs base)
  else return .string (String.ofList cs)

theorem doubleQuoted_eq (inner : Inner) (cs tail : List Char) (position : Position)
    (indent : Option Nat) : ∃ cur', cur'.rest = ')' :: tail ∧
      doubleQuoted inner ⟨'"' :: (doubled '"' cs ++ '"' :: ')' :: tail), position, indent⟩ =
        (quotedExpr inner cs (position.after '"')).map fun e => (e, cur') := by
  let cur : Cursor := ⟨'"' :: (doubled '"' cs ++ '"' :: ')' :: tail), position, indent⟩
  let cur' := cur.skip ((doubled '"' cs).length + 2)
  have hrest : cur'.rest = ')' :: tail := by
    rw [Cursor.rest_skip, List.drop_succ_cons, ← List.drop_drop, List.drop_left]
    rfl
  have hcontent : Read.quoted '"' cur = .ok (cs, cur') := by
    have hend : (')' :: tail).head? ≠ some '"' := nofun
    have hq := quotedContent?_doubled hend cs
    refine (bind_eq_of_ok (show Read.rest cur = .ok (cur.rest, cur) from rfl) _).trans ?_
    rw [List.tail_cons, hq]
    rfl
  refine ⟨cur', hrest, ?_⟩
  refine (bind_eq_of_ok (show Read.here cur = .ok (position, cur) from rfl) _).trans ?_
  refine (bind_eq_of_ok hcontent _).trans ?_
  rw [quotedExpr, nodesAt]
  split
  · rcases inner.block.run (.ofChars cs (position.after '"')) with e | ⟨⟨nodes, ending⟩, _⟩
    · rfl
    · cases ending <;> rfl
  · rfl

/-- Before a closing parenthesis nothing but the double quotes is read as an expression. -/
theorem expr_doubled (inner : Inner) (cs tail : List Char) (position : Position)
    (indent : Option Nat) : ∃ cur', cur'.rest = ')' :: tail ∧
      expr inner ⟨' ' :: '"' :: (doubled '"' cs ++ '"' :: ')' :: tail), position, indent⟩ =
        (quotedExpr inner cs ((position.after ' ').after '"')).map fun e => (e, cur') := by
  obtain ⟨cur', hrest, hquoted⟩ :=
    doubleQuoted_eq inner cs tail (position.after ' ') (indentAfter indent ' ')
  refine ⟨cur', hrest, ?_⟩
  have hunary : unary inner (inner.limit + 1)
      ⟨' ' :: '"' :: (doubled '"' cs ++ '"' :: ')' :: tail), position, indent⟩ =
        doubleQuoted inner ⟨'"' :: (doubled '"' cs ++ '"' :: ')' :: tail), position.after ' ',
          indentAfter indent ' '⟩ := rfl
  cases he : quotedExpr inner cs ((position.after ' ').after '"') with
  | error e =>
    rw [he] at hquoted
    exact levels_of_error (hunary.trans hquoted) levels
  | ok e =>
    rw [he] at hquoted
    exact levels_of_paren (hunary.trans hquoted) hrest levels

/-! ### The source with a source in quotes -/

/-- The source that assigns a source in double quotes to a variable and renders the variable. -/
def quotedSource (source : String) : String :=
  "#set($s = \"" ++ String.ofList (doubled '"' source.toList) ++ "\")$s"

theorem toList_quotedSource (source : String) :
    (quotedSource source).toList = '#' :: 's' :: 'e' :: 't' :: '(' :: '$' :: 's' :: ' ' :: '=' ::
      ' ' :: '"' :: (doubled '"' source.toList ++ ['"', ')', '$', 's']) := by
  simp [quotedSource]

theorem length_le_doubled (quote : Char) : (cs : List Char) → cs.length ≤ (doubled quote cs).length
  | [] => Nat.le_refl 0
  | c :: cs => by
      have ih := length_le_doubled quote cs
      rw [doubled]
      split
      · simp only [List.length_cons]
        omega
      · simp only [List.length_cons]
        omega

/-- Before the value an assignment does not depend on it. -/
theorem assignment_eq (inner : Inner) (cs : List Char) (position : Position)
    (indent : Option Nat) : ∃ literal position' cur, cur.rest = ' ' :: cs ∧
      assignment inner ⟨'(' :: '$' :: 's' :: ' ' :: '=' :: ' ' :: cs, position, indent⟩ =
        (do
          let e ← inner.expr
          closeParen
          return (.mk "s" [] false literal position', e) : Read (Reference × Expr)) cur := by
  let cur : Cursor := ⟨'(' :: '$' :: 's' :: ' ' :: '=' :: ' ' :: cs, position, indent⟩
  obtain ⟨literal, position', href⟩ : ∃ literal position',
      reference inner (cur.skip 1) = .ok (.mk "s" [] false literal position', cur.skip 3) :=
    ⟨_, _, rfl⟩
  have hopen : openParen .assign cur = .ok ((), cur.skip 1) := rfl
  have hblanks : Read.skipBlanks (cur.skip 1) = .ok ((), cur.skip 1) := rfl
  have hblanks' : Read.skipBlanks (cur.skip 3) = .ok ((), cur.skip 4) := rfl
  have hrest : Read.rest (cur.skip 4) = .ok ('=' :: ' ' :: cs, cur.skip 4) := rfl
  have hsign : Read.skip 1 (cur.skip 4) = .ok ((), cur.skip 5) := rfl
  refine ⟨literal, position', cur.skip 5, rfl, ?_⟩
  refine (bind_eq_of_ok hopen _).trans ((bind_eq_of_ok hblanks _).trans ?_)
  refine (bind_eq_of_ok href _).trans ((bind_eq_of_ok hblanks' _).trans ?_)
  exact (bind_eq_of_ok hrest _).trans (bind_eq_of_ok hsign _)

/-- The first part of such a source assigns the expression in it. -/
theorem step_assignment (inner : Inner) (d : Draft) (cs : List Char) (p : Position)
    (i : Option Nat) {value : Cursor → Except SyntaxError Expr}
    (hvalue : ∀ cur : Cursor, cur.rest = ' ' :: cs → ∃ cur', cur'.rest = [')', '$', 's'] ∧
      inner.expr cur = (value cur).map fun e => (e, cur')) :
    ∃ literal position cur cur', cur'.rest = ['$', 's'] ∧
      step inner d ⟨'#' :: (Directive.assign.word ++ '(' :: '$' :: 's' :: ' ' :: '=' :: ' ' :: cs),
        p, i⟩ = (value cur).map fun e =>
          (.goOn (d.add (.assign (.mk "s" [] false literal position) e p)), cur') := by
  obtain ⟨literal, position, cur, hcur, hassign⟩ := assignment_eq inner cs
    ((((p.after '#').after 's').after 'e').after 't') none
  obtain ⟨cur', hrest, hx⟩ := hvalue cur hcur
  have hrest' : (cur'.skip 1).rest = ['$', 's'] := by
    rw [Cursor.rest_skip, hrest]
    rfl
  refine ⟨literal, position, cur, cur'.skip 1, hrest',
    (step_withArguments .assign _ p i).trans ?_⟩
  cases hv : value cur with
  | error e =>
    rw [hv] at hx
    exact bind_eq_of_error (hassign.trans (bind_eq_of_error hx _)) _
  | ok e =>
    rw [hv] at hx
    have hclose : closeParen cur' = .ok ((), cur'.skip 1) := by
      obtain ⟨_, _, _⟩ := cur'
      obtain rfl := hrest
      rfl
    have hgobble : ∀ d, Read.gobble i d (cur'.skip 1) = .ok (d, cur'.skip 1) := by
      obtain ⟨_, _, _⟩ := cur'
      obtain rfl := hrest
      cases i <;> exact fun _ => rfl
    refine (bind_eq_of_ok (hassign.trans ((bind_eq_of_ok hx _).trans
      (bind_eq_of_ok hclose _))) _).trans ?_
    exact bind_eq_of_ok (hgobble d) _

/-- The second part is the variable. -/
theorem step_variable (inner : Inner) (d : Draft) {cur : Cursor} (hrest : cur.rest = ['$', 's']) :
    step inner d cur = .ok (.goOn (d.add (.reference (.mk "s" [] false "$s" cur.position))),
      cur.skip 2) := by
  obtain ⟨_, _, _⟩ := cur
  obtain rfl := hrest
  rfl

/-- What is read of such a source is what is read of the content of the quotes. -/
theorem parse_quotedSource (source : String) :
    ∃ (limit : Nat) (base : Position) (literal : String) (p p' p'' : Position),
      source.toList.length ≤ limit ∧
        parse (quotedSource source) =
          (quotedExpr (Inner.upTo limit) source.toList base).map fun e =>
            [.assign (.mk "s" [] false literal p) e p',
              .reference (.mk "s" [] false "$s" p'')] := by
  let content := doubled '"' source.toList
  let limit := content.length + 13
  let inner := Inner.upTo (limit + 1)
  have hlimit : source.toList.length ≤ limit :=
    Nat.le_trans (length_le_doubled _ _) (Nat.le_add_right _ _)
  have hlength : (quotedSource source).toList.length = limit + 2 := by
    rw [toList_quotedSource]
    simp only [List.length_cons, List.length_append, List.length_nil, limit, content]
  have hexpr : ∀ cur : Cursor, cur.rest = ' ' :: '"' :: (content ++ ['"', ')', '$', 's']) →
      ∃ cur', cur'.rest = [')', '$', 's'] ∧ inner.expr cur =
        (quotedExpr (Inner.upTo limit) source.toList
          ((cur.position.after ' ').after '"')).map fun e => (e, cur') := by
    rintro ⟨_, position, indent⟩ rfl
    exact expr_doubled (Inner.upTo limit) source.toList ['$', 's'] position indent
  obtain ⟨literal, p, before, cur, hrest, hassign⟩ :=
    step_assignment inner .empty _ .start (some 0) hexpr
  have hvariable := fun d => step_variable inner d hrest
  have hend : ∀ d, blockFrom inner limit d (cur.skip 2) =
      .ok (⟨d.finish, .endOfText⟩, cur.skip 2) := by
    refine fun d => blockFrom_of_nil ?_ _ _ d
    rw [Cursor.rest_skip, hrest]
    rfl
  refine ⟨limit, (before.position.after ' ').after '"', literal, p, .start, cur.position,
    hlimit, ?_⟩
  have hblock : (Inner.upTo (limit + 2)).block = blockFrom inner (limit + 2) .empty := by
    change (fun cur => block inner cur) = _
    rw [block, Inner.limit_upTo]
  rw [parse_eq_nodesAt, hlength, nodesAt, hblock, toList_quotedSource]
  cases hv : quotedExpr (Inner.upTo limit) source.toList
    ((before.position.after ' ').after '"') with
  | error e =>
    rw [hv] at hassign
    rw [StateT.run, blockFrom, Cursor.ofChars]
    exact congrArg (· >>= _) (bind_eq_of_error hassign _)
  | ok e =>
    rw [hv] at hassign
    have hread : blockFrom inner (limit + 2) .empty (.ofChars _ .start) = _ :=
      (bind_eq_of_ok hassign _).trans ((bind_eq_of_ok (hvariable _) _).trans (hend _))
    exact congrArg (· >>= _) hread

end GatewayMapping.Template
