import Mathlib
import GatewayMapping.Proofs.Reading.LastCharacter
import GatewayMapping.Proofs.Reading.Places
import GatewayMapping.Proofs.Text.Pieces

/-!
# The places of faults

A fault has the place of a cursor, or one that was kept from an earlier cursor: where a directive,
a word, a reference or the end of a block stands. A cursor only moves forward, so all these places
are among those of the cursors that follow the first one (`Cursor.AllPlaces`).

Inside double quotes the cursor moves over their content, whose lines are no longer than those of
the source. Its places are in the same lines as places of the source and not behind them
(`Cursor.AllPlaces.content`), which is enough for bounds, and it is all that is needed for quotes
inside quotes, too. Hence the place of every fault is in a line of the source, at most just behind
its last character (`parse_error_position`).

## Main definitions

* `Position.NotBehind`: a place is in the same line as another one and not behind it.
* `Position.InLinesOf`: a place is in a line of a text.
* `Cursor.AllPlaces`: what holds of the places of a cursor and of all that follow it.
* `Read.Points`: a reader whose faults have places that are as described.

## Main results

* `Inner.upTo_points`: the readers of expressions and blocks are of this kind.
* `parse_error_position`: the places of the faults of a source.
-/

namespace GatewayMapping.Template

/-! ### Places in lines -/

namespace Position

/-- The place is in the same line as the other one, and not behind it. -/
structure NotBehind (p q : Position) : Prop where
  line : p.line = q.line
  one_le : 1 ≤ p.column
  le : p.column ≤ q.column

/-- The place is in a line of the text, at a character or just behind the last one. -/
structure InLinesOf (text : List Char) (p : Position) : Prop where
  one_le_line : 1 ≤ p.line
  one_le_column : 1 ≤ p.column
  exists_line : ∃ line, (Text.splitAt '\n' text)[p.line - 1]? = some line ∧
    p.column ≤ line.length + 1

theorem InLinesOf.of_notBehind {text : List Char} {p q : Position} (hpq : p.NotBehind q)
    (hq : q.InLinesOf text) : p.InLinesOf text := by
  obtain ⟨line, hline, hlength⟩ := hq.exists_line
  exact ⟨hpq.line ▸ hq.one_le_line, hpq.one_le, line, hpq.line ▸ hline, hpq.le.trans hlength⟩

theorem one_le_column_after {p : Position} (h : 1 ≤ p.column) (c : Char) :
    1 ≤ (p.after c).column := by
  by_cases hc : c = '\n'
  · rw [hc, after_lineFeed]
  · rw [after_of_ne p hc]
    exact Nat.le_succ_of_le h

theorem one_le_column_afterAll {p : Position} (h : 1 ≤ p.column) (cs : List Char) :
    1 ≤ (p.afterAll cs).column := by
  induction cs generalizing p with
  | nil => exact h
  | cons c cs ih => exact ih (one_le_column_after h c)

/-- After some characters of a text, the place is in one of its lines. The first line may have
begun before the text. -/
theorem afterAll_in_line (p : Position) (front tail : List Char) :
    ∃ i line, (Text.splitAt '\n' (front ++ tail))[i]? = some line ∧
      (p.afterAll front).line = p.line + i ∧
      (p.afterAll front).column ≤ (if i = 0 then p.column else 1) + line.length := by
  induction front generalizing p with
  | nil =>
    obtain ⟨line, lines, hlines⟩ := List.exists_cons_of_ne_nil (Text.splitAt_ne_nil '\n' tail)
    refine ⟨0, line, ?_, rfl, Nat.le_add_right _ _⟩
    rw [List.nil_append, hlines, List.getElem?_cons_zero]
  | cons c front ih =>
    obtain ⟨i, line, hline, hi, hcolumn⟩ := ih (p.after c)
    have hfirst : p.afterAll (c :: front) = (p.after c).afterAll front := rfl
    rw [List.cons_append, Text.splitAt, hfirst]
    by_cases hc : c = '\n'
    · rw [hc, after_lineFeed] at hi hcolumn ⊢
      rw [ite_self] at hcolumn
      rw [if_pos rfl]
      refine ⟨i + 1, line, hline, hi.trans (Nat.add_right_comm p.line 1 i), ?_⟩
      rwa [if_neg (Nat.succ_ne_zero i)]
    · obtain ⟨first, lines, hlines⟩ :=
        List.exists_cons_of_ne_nil (Text.splitAt_ne_nil '\n' (front ++ tail))
      rw [after_of_ne p hc] at hi hcolumn ⊢
      rw [hlines] at hline ⊢
      rw [if_neg hc]
      cases i with
      | zero =>
        cases hline
        refine ⟨0, _, rfl, hi, ?_⟩
        rw [if_pos rfl] at hcolumn ⊢
        exact hcolumn.trans_eq (Nat.add_right_comm p.column 1 line.length)
      | succ i =>
        rw [if_neg (Nat.succ_ne_zero i)] at hcolumn
        refine ⟨i + 1, line, hline, hi, ?_⟩
        rwa [if_neg (Nat.succ_ne_zero i)]

theorem inLinesOf_afterAll (front tail : List Char) :
    (start.afterAll front).InLinesOf (front ++ tail) := by
  obtain ⟨i, line, hline, hi, hcolumn⟩ := afterAll_in_line start front tail
  have hone : start.line = 1 := rfl
  rw [hone] at hi
  refine ⟨by omega, one_le_column_afterAll (Nat.le_refl 1) front, line, ?_, ?_⟩
  · rw [hi, Nat.add_sub_cancel_left]
    exact hline
  · have hstart : (if i = 0 then start.column else 1) = 1 := ite_self 1
    rw [hstart] at hcolumn
    omega

end Position

/-! ### Cursors with the places that follow them -/

/-- The place of the cursor is as described, and so are the places of all cursors after it. -/
def Cursor.AllPlaces (P : Position → Prop) (cur : Cursor) : Prop :=
  ∀ n, P (cur.skip n).position

namespace Cursor.AllPlaces

variable {P : Position → Prop} {cur : Cursor}

theorem here (h : cur.AllPlaces P) : P cur.position := h 0

theorem skip (h : cur.AllPlaces P) (n : Nat) : (cur.skip n).AllPlaces P := by
  intro m
  rw [Cursor.skip_skip]
  exact h (n + m)

theorem ofChars (text : List Char) : (Cursor.ofChars text .start).AllPlaces (·.InLinesOf text) := by
  intro n
  rw [Cursor.position_skip]
  have h := Position.inLinesOf_afterAll (text.take n) (text.drop n)
  rwa [List.take_append_drop] at h

/-- A place in the content of double quotes is not behind the place of what it is written as. -/
theorem content (h : cur.AllPlaces P) (hP : ∀ p q : Position, p.NotBehind q → P q → P p)
    {rest content : List Char} {k : Nat} (hrest : cur.rest = '"' :: rest)
    (hcontent : Read.quotedContent? '"' rest = some (content, k)) :
    (Cursor.ofChars content (cur.position.after '"')).AllPlaces P := by
  intro n
  obtain ⟨left, rfl⟩ := Read.eq_doubled_of_quotedContent? hcontent
  have hplace := h ((doubled '"' (content.take n)).length + 1)
  have htake : cur.rest.take ((doubled '"' (content.take n)).length + 1) =
      '"' :: doubled '"' (content.take n) := by
    have hsplit : doubled '"' content =
        doubled '"' (content.take n) ++ doubled '"' (content.drop n) := by
      rw [← doubled_append, List.take_append_drop]
    rw [hrest, List.take_succ_cons, hsplit, List.append_assoc, List.take_left]
  have hfirst : cur.position.afterAll ('"' :: doubled '"' (content.take n)) =
      (cur.position.after '"').afterAll (doubled '"' (content.take n)) := rfl
  rw [Cursor.position_skip, htake, hfirst, Position.afterAll_doubled] at hplace
  rw [Cursor.position_skip]
  refine hP _ _ ?_ hplace
  exact ⟨rfl, Position.one_le_column_afterAll (Nat.le_add_left 1 _) _, Nat.le_add_right _ _⟩

end Cursor.AllPlaces

/-! ### Readers whose faults have such places -/

namespace Read

variable {α β : Type} {P : Position → Prop}

/-- The outcome of a reader from a cursor: a fault has a place as described, and otherwise the
places that follow are as described, and `Q` holds of the result. -/
def PointsAt (P : Position → Prop) (Q : α → Prop) (x : Read α) (cur : Cursor) : Prop :=
  match x cur with
  | .error e => P e.position
  | .ok (a, cur') => cur'.AllPlaces P ∧ Q a

/-- From a cursor all of whose places are as described, the faults of the reader have such
places. -/
def Points (P : Position → Prop) (Q : α → Prop) (x : Read α) : Prop :=
  ∀ cur, cur.AllPlaces P → PointsAt P Q x cur

/-- Nothing is known of the result. -/
abbrev PointsOnly (P : Position → Prop) (x : Read α) : Prop := Points P (fun _ => True) x

theorem PointsAt.of_error {Q : α → Prop} {x : Read α} {cur : Cursor} {e : SyntaxError}
    (h : PointsAt P Q x cur) (he : x cur = .error e) : P e.position := by
  rwa [PointsAt, he] at h

theorem PointsAt.of_ok {Q : α → Prop} {x : Read α} {cur : Cursor} {p : α × Cursor}
    (h : PointsAt P Q x cur) (hp : x cur = .ok p) : p.2.AllPlaces P ∧ Q p.1 := by
  rwa [PointsAt, hp] at h

theorem PointsAt.bind {Q : α → Prop} {S : β → Prop} {x : Read α} {f : α → Read β} {cur : Cursor}
    (hx : PointsAt P Q x cur)
    (hf : ∀ a cur', cur'.AllPlaces P → Q a → PointsAt P S (f a) cur') :
    PointsAt P S (x >>= f) cur := by
  have hrun : (x >>= f) cur = (x cur).bind fun p => f p.1 p.2 := rfl
  rw [PointsAt, hrun]
  cases hxcur : x cur with
  | error e => exact hx.of_error hxcur
  | ok p =>
    obtain ⟨hcur', ha⟩ := hx.of_ok hxcur
    exact hf p.1 p.2 hcur' ha

/-- What follows a look at the place is known where the place is. -/
theorem PointsAt.here_bind {S : β → Prop} {f : Position → Read β} {cur : Cursor}
    (hf : PointsAt P S (f cur.position) cur) : PointsAt P S (here >>= f) cur := hf

/-- What follows a look at the next character may rely on it. -/
theorem PointsAt.peek?_bind {S : β → Prop} {f : Option Char → Read β} {cur : Cursor}
    (hf : ∀ c?, cur.rest.head? = c? → PointsAt P S (f c?) cur) :
    PointsAt P S (peek? >>= f) cur := hf _ rfl

namespace Points

variable {Q : α → Prop} {S : β → Prop}

theorem pure {a : α} (h : Q a) : Points P Q (pure a) := fun _ hcur => ⟨hcur, h⟩

theorem bind {x : Read α} {f : α → Read β} (hx : Points P Q x)
    (hf : ∀ a, Q a → Points P S (f a)) : Points P S (x >>= f) :=
  fun cur hcur => (hx cur hcur).bind fun a cur' hcur' ha => hf a ha cur' hcur'

/-- What follows a reader whose result does not matter. -/
theorem seq {x : Read α} {f : α → Read β} (hx : PointsOnly P x)
    (hf : ∀ a, Points P S (f a)) : Points P S (x >>= f) :=
  hx.bind fun a _ => hf a

theorem failAt {position : Position} (h : P position) (fault : SyntaxFault) :
    Points P Q (failAt position fault) :=
  fun _ _ => h

theorem fail (fault : SyntaxFault) : Points P Q (fail fault) := fun _ hcur => hcur.here

theorem unexpected (expected : Expected) : Points P Q (unexpected expected) :=
  fun _ hcur => hcur.here

/-- What is not read from the text. -/
theorem lift {x : Except SyntaxError α} (hok : ∀ a, x = .ok a → Q a)
    (herror : ∀ e, x = .error e → P e.position) : Points P Q (liftM x) := by
  intro cur hcur
  cases x with
  | error e => exact herror e rfl
  | ok a => exact ⟨hcur, hok a rfl⟩

theorem ite {c : Prop} [Decidable c] {x y : Read α} (hx : Points P Q x) (hy : Points P Q y) :
    Points P Q (if c then x else y) := by
  split
  · exact hx
  · exact hy

theorem get : Points P (fun cur => cur.AllPlaces P) get := fun _ hcur => ⟨hcur, hcur⟩

theorem here : Points P P here := fun _ hcur => ⟨hcur, hcur.here⟩

theorem rest : PointsOnly P rest := fun _ hcur => ⟨hcur, trivial⟩

theorem peek? : PointsOnly P peek? := fun _ hcur => ⟨hcur, trivial⟩

theorem skip (n : Nat) : PointsOnly P (skip n) := fun _ hcur => ⟨hcur.skip n, trivial⟩

theorem takeWhile (p : Char → Bool) : PointsOnly P (takeWhile p) :=
  fun _ hcur => ⟨hcur.skip _, trivial⟩

theorem skipWhile (p : Char → Bool) : PointsOnly P (skipWhile p) :=
  fun _ hcur => ⟨hcur.skip _, trivial⟩

/-! ### Tokens -/

theorem char (c : Char) (expected : Expected) : PointsOnly P (char c expected) :=
  peek?.seq fun _ => .ite (skip 1) (unexpected expected)

theorem sign (token : List Char) : PointsOnly P (sign token) :=
  rest.seq fun _ => .ite ((skip token.length).seq fun _ => pure trivial) (pure trivial)

theorem wholeWord (word : List Char) : PointsOnly P (wholeWord word) :=
  rest.seq fun _ => .ite ((skip word.length).seq fun _ => pure trivial) (pure trivial)

theorem name : PointsOnly P name := (takeWhile isNameChar).seq fun _ => pure trivial

theorem quoted (quote : Char) : PointsOnly P (quoted quote) := by
  refine rest.seq fun cs => ?_
  cases quotedContent? quote cs.tail with
  | some p => exact (skip _).seq fun _ => pure trivial
  | none => exact fail _

theorem itemsAfter {item : Read α} (h : PointsOnly P item) (close : Char) (expected : Expected) :
    (limit : Nat) → PointsOnly P (itemsAfter item close expected limit)
  | 0 => unexpected expected
  | limit + 1 => by
      refine (skipWhile isExprBlank).seq fun _ => peek?.seq fun c? => ?_
      cases c? with
      | none => exact unexpected expected
      | some c =>
        refine .ite ((skip 1).seq fun _ => h.seq fun _ => ?_)
          (.ite ((skip 1).seq fun _ => pure trivial) (unexpected expected))
        exact (itemsAfter h close expected limit).seq fun _ => pure trivial

theorem items {item : Read α} (h : PointsOnly P item) (close : Char) (expected : Expected)
    (limit : Nat) : PointsOnly P (items item close expected limit) := by
  refine (skipWhile isExprBlank).seq fun _ => peek?.seq fun c? => .ite ?_ (h.seq fun _ => ?_)
  · exact (skip 1).seq fun _ => pure trivial
  · exact (itemsAfter h close expected limit).seq fun _ => pure trivial

end Points
end Read

/-! ### The grammar -/

/-- The place of what ended a block. -/
def Ending.place? : Ending → Option Position
  | .endOfText => none
  | .finish position | .otherwise position | .elseIf _ position => some position

/-- What ended the block has a place as described. -/
def Block.EndsAt (P : Position → Prop) (b : Block) : Prop := ∀ p ∈ b.ending.place?, P p

/-- A step that ends a block does so at such a place. -/
def Grammar.Step.EndsAt (P : Position → Prop) : Grammar.Step → Prop
  | .goOn _ => True
  | .done b => b.EndsAt P

/-- The readers of expressions and blocks have faults at such places. -/
structure Inner.Points (P : Position → Prop) (inner : Inner) : Prop where
  /-- A place in the same line that is not behind such a place is one, too. -/
  notBehind : ∀ p q : Position, p.NotBehind q → P q → P p
  expr : Read.PointsOnly P inner.expr
  block : Read.Points P (Block.EndsAt P) inner.block

/-- A block that should have ended with the text has its fault where it ended. -/
theorem Block.EndsAt.of_whole {P : Position → Prop} {b : Block} (hb : b.EndsAt P)
    {e : SyntaxError} (he : b.whole = .error e) : P e.position := by
  obtain ⟨nodes, ending⟩ := b
  cases ending with
  | endOfText => cases he
  | _ =>
    cases he
    exact hb _ rfl

namespace Grammar

open Read (Points PointsOnly PointsAt)

variable {P : Position → Prop}

/-! ### Parts of expressions -/

theorem number_points : PointsOnly P number := by
  refine (Points.takeWhile _).seq fun _ => Points.rest.seq fun cs => ?_
  split
  · exact .ite ((Points.skip 1).seq fun _ => (Points.takeWhile _).seq fun _ => .pure trivial)
      (.pure trivial)
  · exact .pure trivial

theorem constant_points : PointsOnly P constant := by
  refine (Points.wholeWord _).seq fun _ => .ite (.pure trivial) ?_
  refine (Points.wholeWord _).seq fun _ => .ite (.pure trivial) ?_
  refine (Points.wholeWord _).seq fun _ => .ite (.pure trivial) ?_
  exact Points.here.bind fun _ hp => (Points.takeWhile _).seq fun _ => .failAt hp _

theorem unaryOp?_points : PointsOnly P unaryOp? := by
  refine Points.rest.seq fun cs => ?_
  split
  · exact .pure trivial
  · exact (Points.skip 1).seq fun _ => .pure trivial
  · exact (Points.wholeWord _).seq fun _ =>
      .ite (.pure trivial) (.ite ((Points.skip 1).seq fun _ => .pure trivial) (.pure trivial))

theorem binaryOp?_points : (ops : List BinaryOp) → PointsOnly P (binaryOp? ops)
  | [] => .pure trivial
  | op :: ops => by
      refine (Points.sign op.symbol).seq fun _ => .ite (.pure trivial) ?_
      cases op.word? with
      | some word =>
        exact (Points.wholeWord word).seq fun _ => .ite (.pure trivial) (binaryOp?_points ops)
      | none => exact binaryOp?_points ops

section

variable {inner : Inner} (h : inner.Points P)
include h

/-- The faults in the content of double quotes have places in the text around them. -/
theorem doubleQuoted_points {cur : Cursor} (hcur : cur.AllPlaces P)
    (hquote : cur.rest.head? = some '"') :
    PointsAt P (fun _ => True) (doubleQuoted inner) cur := by
  obtain ⟨rest, hrest⟩ := List.head?_eq_some_iff.mp hquote
  have hcontent : PointsAt P
      (fun content => (Cursor.ofChars content (cur.position.after '"')).AllPlaces P)
      (Read.quoted '"') cur := by
    have hquoted := Points.quoted '"' cur hcur
    rw [PointsAt]
    cases hr : Read.quoted '"' cur with
    | error e => exact hquoted.of_error hr
    | ok p =>
      obtain ⟨k, hk⟩ := Read.quoted_eq_ok hr
      rw [hrest, List.tail_cons] at hk
      exact ⟨(hquoted.of_ok hr).1, hcur.content h.notBehind hrest hk⟩
  refine .here_bind (hcontent.bind fun content cur' hcur' hplaces => ?_)
  have hblock := h.block _ hplaces
  refine Points.ite ?_ (.pure trivial) cur' hcur'
  have hlift : Points P (fun p : Block × Cursor => p.1.EndsAt P)
      (liftM (inner.block.run (.ofChars content (cur.position.after '"')))) :=
    .lift (fun _ hp => (hblock.of_ok hp).2) fun _ he => hblock.of_error he
  exact hlift.bind fun p hp =>
    (Points.lift (fun _ _ => trivial) fun e he => hp.of_whole he).seq fun _ => .pure trivial

theorem list_points : PointsOnly P (list inner) := by
  refine (Points.skip 1).seq fun _ => (Points.skipWhile _).seq fun _ => Points.peek?.seq fun _ =>
    .ite ((Points.skip 1).seq fun _ => .pure trivial) ?_
  refine h.expr.seq fun _ => (Points.skipWhile _).seq fun _ => (Points.sign _).seq fun _ =>
    .ite ?_ ?_
  · exact h.expr.seq fun _ => (Points.skipWhile _).seq fun _ =>
      (Points.char _ _).seq fun _ => .pure trivial
  · exact (Points.itemsAfter h.expr _ _ _).seq fun _ => .pure trivial

theorem entry_points : PointsOnly P (entry inner) :=
  h.expr.seq fun _ => (Points.skipWhile _).seq fun _ => (Points.char _ _).seq fun _ =>
    h.expr.seq fun _ => .pure trivial

theorem map_points : PointsOnly P (map inner) :=
  (Points.skip 1).seq fun _ => (Points.items (entry_points h) _ _ _).seq fun _ => .pure trivial

theorem segments_points : (limit : Nat) → PointsOnly P (segments inner limit)
  | 0 => .pure trivial
  | limit + 1 => by
      have hmore {s : Segment} : PointsOnly P (return s :: (← segments inner limit)) :=
        (segments_points limit).seq fun _ => .pure trivial
      refine Points.rest.seq fun cs => ?_
      split
      · refine .ite ((Points.skip 1).seq fun _ => Points.name.seq fun _ =>
          Points.peek?.seq fun _ => .ite ?_ hmore) (.pure trivial)
        exact (Points.skip 1).seq fun _ => (Points.items h.expr _ _ _).seq fun _ => hmore
      · exact (Points.skip 1).seq fun _ => h.expr.seq fun _ =>
          (Points.skipWhile _).seq fun _ => (Points.char _ _).seq fun _ => hmore
      · exact .pure trivial

/-- A reference has the place where it was begun to be read. -/
theorem referenceAfter_points (s : Sigil) :
    Points P (fun r => P r.position) (referenceAfter inner s) := by
  refine Points.get.bind fun start hstart => (Points.skip _).seq fun _ => Points.name.seq fun _ =>
    (segments_points h _).seq fun _ => ?_
  have hend {r : Cursor → Reference} (hr : ∀ cur, (r cur).position = start.position) :
      Points P (fun r => P r.position) (return r (← get)) :=
    Points.get.bind fun cur _ => .pure (hr cur ▸ hstart.here)
  exact .ite ((Points.char _ _).seq fun _ => hend fun _ => rfl) (hend fun _ => rfl)

theorem reference?_points :
    Points P (fun r? => ∀ r ∈ r?, P r.position) (reference? inner) := by
  refine Points.rest.seq fun cs => ?_
  cases sigil? cs.tail with
  | some s => exact (referenceAfter_points h s).bind fun r hr => .pure fun _ hmem =>
      Option.mem_some_iff.mp hmem ▸ hr
  | none => exact .pure nofun

theorem reference_points : Points P (fun r => P r.position) (reference inner) := by
  refine Points.peek?.seq fun _ => .ite ((reference?_points h).bind fun r? hr? => ?_)
    (.unexpected _)
  cases r? with
  | some r => exact .pure (hr? r rfl)
  | none => exact .unexpected _

/-! ### Expressions -/

theorem primary_points : PointsOnly P (primary inner) := by
  refine (Points.skipWhile _).seq fun _ cur hcur => .peek?_bind fun c? hhead => ?_
  split
  · exact Points.unexpected _ cur hcur
  · exact ((Points.skip 1).seq fun _ => h.expr.seq fun _ => (Points.skipWhile _).seq fun _ =>
      (Points.char _ _).seq fun _ => .pure trivial) cur hcur
  · exact ((Points.quoted _).seq fun _ => .pure trivial) cur hcur
  · exact doubleQuoted_points h hcur hhead
  · exact list_points h cur hcur
  · exact map_points h cur hcur
  · exact ((reference_points h).bind fun _ _ => .pure trivial) cur hcur
  · exact Points.ite number_points (.ite constant_points (.unexpected _)) cur hcur

theorem unary_points : (limit : Nat) → PointsOnly P (unary inner limit)
  | 0 => primary_points h
  | limit + 1 => by
      refine (Points.skipWhile _).seq fun _ => Points.here.bind fun _ _ =>
        unaryOp?_points.seq fun op? => ?_
      cases op? with
      | some op => exact (unary_points limit).seq fun _ => .pure trivial
      | none => exact primary_points h

omit h in
theorem chain_points {operand : Read Expr} (ho : PointsOnly P operand) (ops : List BinaryOp) :
    (limit : Nat) → (left : Expr) → PointsOnly P (chain operand ops limit left)
  | 0, _ => .pure trivial
  | limit + 1, left => by
      refine (Points.skipWhile _).seq fun _ => Points.here.bind fun _ _ =>
        (binaryOp?_points ops).seq fun op? => ?_
      cases op? with
      | some op => exact ho.seq fun _ => chain_points ho ops limit _
      | none => exact .pure trivial

theorem levels_point (limit : Nat) : (levels : List (List BinaryOp)) →
    PointsOnly P (levels.foldr (level limit) (unary inner limit))
  | [] => unary_points h limit
  | ops :: levels =>
      (levels_point limit levels).seq fun left =>
        chain_points (levels_point limit levels) ops limit left

theorem expr_points : PointsOnly P (expr inner) := levels_point h _ levels

/-! ### Parts of blocks -/

omit h in
theorem gobble_points (indent : Option Nat) (d : Draft) : PointsOnly P (Read.gobble indent d) := by
  refine Points.rest.seq fun cs => ?_
  split
  · exact (Points.skip _).seq fun _ => .pure trivial
  · exact .pure trivial

omit h in
theorem escape_points (d : Draft) : PointsOnly P (escape d) := by
  refine (Points.takeWhile _).seq fun _ => Points.peek?.seq fun c? => ?_
  cases c? with
  | some c =>
    exact .ite (.ite ((Points.skip 1).seq fun _ => .pure trivial) (.pure trivial)) (.pure trivial)
  | none => exact .pure trivial

omit h in
theorem lineComment_points (d : Draft) : PointsOnly P (lineComment d) :=
  Points.get.bind fun _ _ => (Points.skipWhile _).seq fun _ => (Points.skip 1).seq fun _ =>
    .pure trivial

omit h in
theorem blockComment_points (d : Draft) : PointsOnly P (blockComment d) := by
  refine Points.get.bind fun _ _ => Points.rest.seq fun cs => ?_
  cases Text.indexOf? ['*', '#'] (cs.drop 2) with
  | some n => exact (Points.skip _).seq fun _ => gobble_points _ d
  | none => exact .fail _

omit h in
theorem verbatim_points (d : Draft) : PointsOnly P (verbatim d) := by
  refine Points.rest.seq fun cs => ?_
  dsimp only
  cases Text.indexOf? [']', ']', '#'] (cs.drop 3) with
  | some n => exact (Points.skip _).seq fun _ => .pure trivial
  | none => exact .fail _

omit h in
theorem openParen_points (d : Directive) : PointsOnly P (openParen d) :=
  (Points.skipWhile _).seq fun _ => .char _ _

omit h in
theorem closeParen_points : PointsOnly P closeParen :=
  (Points.skipWhile _).seq fun _ => .char _ _

theorem argument_points (d : Directive) : PointsOnly P (argument inner d) :=
  (openParen_points d).seq fun _ => h.expr.seq fun _ => closeParen_points.seq fun _ =>
    .pure trivial

theorem assignment_points : PointsOnly P (assignment inner) := by
  refine (openParen_points _).seq fun _ => (Points.skipWhile _).seq fun _ =>
    (reference_points h).bind fun _ _ => (Points.skipWhile _).seq fun _ =>
      Points.rest.seq fun cs => ?_
  split
  · exact .unexpected _
  · exact (Points.skip 1).seq fun _ => h.expr.seq fun _ => closeParen_points.seq fun _ =>
      .pure trivial
  · exact .unexpected _

/-- A loop over a reference with a path is a fault at the reference. -/
theorem loopHead_points : PointsOnly P (loopHead inner) := by
  refine (openParen_points _).seq fun _ => (Points.skipWhile _).seq fun _ =>
    (reference_points h).bind fun r hr => .ite ?_ (.failAt hr _)
  refine (Points.skipWhile _).seq fun _ => (Points.wholeWord _).seq fun _ =>
    .ite ?_ (.unexpected _)
  exact h.expr.seq fun _ => closeParen_points.seq fun _ => .pure trivial

/-- A second end of the last branch is a fault where this end stands. -/
theorem branches_points (opened : Position) : (limit : Nat) → (condition : Expr) →
    PointsOnly P (branches inner opened limit condition)
  | 0, _ => .unexpected _
  | limit + 1, condition => by
      refine h.block.bind fun body hbody => ?_
      cases hending : body.ending with
      | endOfText => exact .unexpected _
      | finish position => exact .pure trivial
      | elseIf next position =>
        exact (branches_points opened limit next).seq fun _ => .pure trivial
      | otherwise position =>
        refine h.block.bind fun last hlast => ?_
        rw [Block.EndsAt] at hlast
        cases hlastEnding : last.ending with
        | endOfText => exact .unexpected _
        | finish position => exact .pure trivial
        | otherwise position => exact .failAt (hlast _ (hlastEnding ▸ rfl)) _
        | elseIf next position => exact .failAt (hlast _ (hlastEnding ▸ rfl)) _

theorem loopBody_points (opened : Position) : PointsOnly P (loopBody inner opened) := by
  refine h.block.bind fun body hbody => ?_
  rw [Block.EndsAt] at hbody
  cases hending : body.ending with
  | endOfText => exact .unexpected _
  | finish position => exact .pure trivial
  | otherwise position => exact .failAt (hbody _ (hending ▸ rfl)) _
  | elseIf next position => exact .failAt (hbody _ (hending ▸ rfl)) _

theorem directive_points {position : Position} (hposition : P position) (indent : Option Nat)
    (d : Draft) : (word : Directive) →
      Points P (Step.EndsAt P) (directive inner position indent d word)
  | .assign => (assignment_points h).seq fun _ => (gobble_points _ _).seq fun _ => .pure trivial
  | .ifThen => (argument_points h _).seq fun _ => (gobble_points _ _).seq fun _ =>
      (branches_points h _ _ _).seq fun _ => .pure trivial
  | .elseIf => (argument_points h _).seq fun _ => (gobble_points _ _).seq fun _ =>
      .pure fun _ hp => Option.mem_some_iff.mp hp ▸ hposition
  | .otherwise => (gobble_points _ _).seq fun _ =>
      .pure fun _ hp => Option.mem_some_iff.mp hp ▸ hposition
  | .finish => (gobble_points _ _).seq fun _ =>
      .pure fun _ hp => Option.mem_some_iff.mp hp ▸ hposition
  | .forEach => (loopHead_points h).seq fun _ => (gobble_points _ _).seq fun _ =>
      (loopBody_points h _).seq fun _ => .pure trivial
  | .leave => (gobble_points _ _).seq fun _ => .pure trivial
  | .stop => (gobble_points _ _).seq fun _ => .pure trivial
  | .parse => (argument_points h _).seq fun _ => (gobble_points _ _).seq fun _ => .pure trivial
  | .insert => (argument_points h _).seq fun _ => (gobble_points _ _).seq fun _ => .pure trivial

theorem hash_points (d : Draft) : Points P (Step.EndsAt P) (hash inner d) := by
  refine Points.rest.seq fun cs => ?_
  split
  · exact (lineComment_points d).seq fun _ => .pure trivial
  · exact (blockComment_points d).seq fun _ => .pure trivial
  · exact (verbatim_points d).seq fun _ => .pure trivial
  · split
    · exact Points.get.bind fun start hstart => (Points.skip _).seq fun _ =>
        directive_points h hstart.here _ _ _
    · exact (Points.skip 1).seq fun _ => .pure trivial

theorem step_points (d : Draft) : Points P (Step.EndsAt P) (step inner d) := by
  refine Points.peek?.seq fun c? => ?_
  split
  · exact .pure nofun
  · exact (escape_points d).seq fun _ => .pure trivial
  · refine (reference?_points h).bind fun r? _ => ?_
    cases r? with
    | some r => exact .pure trivial
    | none => exact (Points.skip 1).seq fun _ => .pure trivial
  · exact hash_points h d
  · exact (Points.skip 1).seq fun _ => .pure trivial

/-! ### Blocks -/

theorem blockFrom_points : (limit : Nat) → (d : Draft) →
    Points P (Block.EndsAt P) (blockFrom inner limit d)
  | 0, _ => .pure nofun
  | limit + 1, d => by
      refine (step_points h d).bind fun s hs => ?_
      cases s with
      | goOn d => exact blockFrom_points limit d
      | done b => exact .pure hs

theorem block_points : Points P (Block.EndsAt P) (block inner) := blockFrom_points h _ _

end

end Grammar

/-- The readers of expressions and blocks have faults at such places, however deep the quotes are
inside one another. -/
theorem Inner.upTo_points {P : Position → Prop}
    (hP : ∀ p q : Position, p.NotBehind q → P q → P p) :
    (limit : Nat) → (Inner.upTo limit).Points P
  | 0 => ⟨hP, .unexpected _, .pure nofun⟩
  | limit + 1 =>
      ⟨hP, Grammar.expr_points (upTo_points hP limit), Grammar.block_points (upTo_points hP limit)⟩

theorem inLinesOf_of_parse_error {source : String} {e : SyntaxError}
    (h : parse source = .error e) : e.position.InLinesOf source.toList := by
  have hpoints := (Inner.upTo_points (P := (·.InLinesOf source.toList))
    (fun _ _ => .of_notBehind) source.toList.length).block _
    (Cursor.AllPlaces.ofChars source.toList)
  unfold parse at h
  dsimp only at h
  rw [StateT.run] at h
  cases hblock : (Inner.upTo source.toList.length).block (.ofChars source.toList .start) with
  | error e' =>
    rw [hblock] at h
    cases h
    exact hpoints.of_error hblock
  | ok p =>
    rw [hblock] at h
    exact (hpoints.of_ok hblock).2.of_whole h

/-- **Faults have places in the source.** Wherever a source is no template, the fault is in one of
its lines, of which there are as many as it has line feeds and one more, and its column is at most
the one just behind the last character of that line. This is so inside double quotes, too, and
inside quotes in their contents. -/
theorem parse_error_position {source : String} {e : SyntaxError} (h : parse source = .error e) :
    1 ≤ e.position.line ∧ e.position.line ≤ source.toList.count '\n' + 1 ∧
      ∃ line, (Text.splitAt '\n' source.toList)[e.position.line - 1]? = some line ∧
        1 ≤ e.position.column ∧ e.position.column ≤ line.length + 1 := by
  obtain ⟨hline, hcolumn, line, hget, hlength⟩ := inLinesOf_of_parse_error h
  obtain ⟨hlt, -⟩ := List.getElem?_eq_some_iff.mp hget
  rw [Text.length_splitAt] at hlt
  exact ⟨hline, by omega, line, hget, hcolumn, hlength⟩

/-- A fault at the end of quotes inside quotes, where the double quotes before it in its line are
written twice and four times. -/
theorem parse_error_position_nested :
    let source := "a\n#set($x = \"\"\"b\n\"\" $y.f(\"\"p\"\"\"\" #if\"\")\")\nc"
    let e : SyntaxError := ⟨.unexpected .endOfText (.openParen .ifThen), ⟨3, 15⟩⟩
    parse source = .error e ∧
      1 ≤ e.position.line ∧ e.position.line ≤ source.toList.count '\n' + 1 ∧
      ∃ line, (Text.splitAt '\n' source.toList)[e.position.line - 1]? = some line ∧
        1 ≤ e.position.column ∧ e.position.column ≤ line.length + 1 := by
  intro source e
  have hparse : parse source = .error e := by cbv
  exact ⟨hparse, parse_error_position hparse⟩

end GatewayMapping.Template
