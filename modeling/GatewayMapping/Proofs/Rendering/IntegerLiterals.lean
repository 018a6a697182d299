import GatewayMapping.Proofs.Rendering.Joining

/-!
# Integers as literals

A template has no literals for negative integers: a minus sign is the operator of opposites, and
the digits after it are a literal of their own. Digits that are no 64-bit integer are read as a
double. So the text of an integer, as templates render it, is read back as the integer unless it is
the least one, whose digits without the sign are one too many (`evaluate_integerSource`).

## Main definitions

* `integerSource`: the source that assigns the text of an integer and renders the variable.
* `integerLiteral`: what the text is read as.
* `writtenValue`: the value that the variable gets.
* `WritesBack`: the variable is bound to the integer and renders the same text.

## Main results

* `parse_pair`: a source is read as its two nodes.
* `writesBack_iff`: every integer but the least one comes back.
-/

namespace GatewayMapping.Template

open Read (Yields)
open Grammar

/-! ### An assignment and a reference after it -/

section

variable {source : String} {rest : List Char} {P Q : Node → Prop}

/-- A source that is read as two nodes. -/
theorem parse_pair (hne : source.toList ≠ [])
    (hfirst : Yields (step (Inner.upTo source.toList.length) .empty) source.toList
      fun s left => (∃ node, s = .goOn (Draft.empty.add node) ∧ P node) ∧ left = rest)
    (hsecond : ∀ d, Yields (step (Inner.upTo source.toList.length) d) rest
      fun s left => (∃ node, s = .goOn (d.add node) ∧ Q node) ∧ left = []) :
    ∃ node node', parse source = .ok [node, node'] ∧ P node ∧ Q node' := by
  obtain ⟨limit, hlimit⟩ : ∃ l, (Inner.upTo source.toList.length).limit = l + 1 :=
    ⟨source.toList.length - 1, by
      have := List.length_pos_iff.mpr hne
      rw [Inner.limit_upTo]
      omega⟩
  have hblock : Yields (block (Inner.upTo source.toList.length)) source.toList fun b _ =>
      b.ending = .endOfText ∧ ∃ node node', b.nodes = [node, node'] ∧ P node ∧ Q node' := by
    refine blockFrom_step (hfirst.mono fun s left hs => ?_)
    obtain ⟨⟨node, rfl, hnode⟩, rfl⟩ := hs
    rw [hlimit]
    rw [Continues]
    refine blockFrom_step ((hsecond _).mono fun s left hs => ?_)
    obtain ⟨⟨node', rfl, hnode'⟩, rfl⟩ := hs
    exact fun cur hcur =>
      ⟨_, cur, blockFrom_of_nil hcur _ _ _, rfl, node, node', rfl, hnode, hnode'⟩
  obtain ⟨_, hparse, node, node', rfl, hnodes⟩ :=
    parse_of_yields (P := fun ns => ∃ node node', ns = [node, node'] ∧ P node ∧ Q node') hblock
  exact ⟨node, node', hparse, hnodes⟩

end

/-- A reference after a directive keeps it from taking the line. -/
theorem gobble_dollar_yields (indent : Option Nat) (d : Draft) (rest : List Char) :
    Yields (Read.gobble indent d) ('$' :: rest) fun d' left => d' = d ∧ left = '$' :: rest := by
  refine .seq (.rest ?_)
  cases indent <;> exact .pure ⟨rfl, rfl⟩

/-- The source that assigns what a text means to `x` and renders `x`. -/
def assignAndShow (text : String) : String := "#set($x = " ++ text ++ ")$x"

/-- The source is read as an assignment and a reference. -/
theorem parse_assignAndShow {text : String} {e : Expr}
    (he : ReadsItem innerExpr (Expr.unplaced noLiteral) e (' ' :: text.toList)) :
    ∃ l p value position l' p', parse (assignAndShow text) =
        .ok [.assign (.mk "x" [] false l p) value position, .reference (.mk "x" [] false l' p')] ∧
      value.unplaced noLiteral = e.unplaced noLiteral := by
  have hx : IsName "x" := ⟨'x', [], rfl, rfl, nofun⟩
  have htext : (assignAndShow text).toList = '#' :: (Directive.assign.word ++ '(' :: '$' ::
      ("x".toList ++ ([] ++ ' ' :: '=' :: ' ' :: (text.toList ++ ')' :: ['$', 'x'])))) := by
    simp [assignAndShow, Directive.word]
  have hlength : text.toList.length < (assignAndShow text).toList.length := by
    simp only [htext, List.length_cons, List.length_append]
    omega
  have hfirst := step_assign_yields hx .nil he
    (fun indent => gobble_dollar_yields indent .empty ['x'])
    (by simpa using hlength : ([] : List Char).length + _ < (assignAndShow text).toList.length)
  have hsecond (d : Draft) := step_reference_yields d hx .nil
    (Nat.zero_le (assignAndShow text).toList.length)
  rw [← htext] at hfirst
  obtain ⟨_, _, hparse, ⟨target, value, position, rfl, htarget, hvalue⟩, r, rfl, hr⟩ :=
    parse_pair (htext ▸ List.cons_ne_nil _ _) hfirst hsecond
  obtain ⟨path, l, p, rfl, hpath⟩ := Reference.exists_of_unplaced htarget
  obtain rfl := List.map_eq_nil_iff.mp hpath
  obtain ⟨path', l', p', rfl, hpath'⟩ := Reference.exists_of_unplaced hr
  obtain rfl := List.map_eq_nil_iff.mp hpath'
  exact ⟨l, p, value, position, l', p', hparse, hvalue⟩

namespace Render

variable {scene : Scene} {st : State} {v : Value}

/-- The nodes of the source bind `x` and render its text. -/
theorem succeeds_assignAndShow {value : Expr} {l l' : String} {p p' position : Position}
    (hvalue : Succeeds (expr scene value) st v st) (hnull : v ≠ .null) :
    Succeeds (nodes scene [.assign (.mk "x" [] false l p) value position,
      .reference (.mk "x" [] false l' p')]) st (.ofText (st.heap.text v))
      { st with scope := st.scope.insert "x" v } := by
  have hassign : Succeeds (node scene (.assign (.mk "x" [] false l p) value position)) st
      (.ofText "") { st with scope := st.scope.insert "x" v } := by
    refine succeeds_bind_iff.mpr ⟨v, st, hvalue, ?_⟩
    cases v with
    | null => exact absurd rfl hnull
    | _ => exact succeeds_bind_iff.mpr ⟨_, _, rfl, rfl⟩
  have hx : (st.scope.insert "x" v).get? "x" = some v := by
    rw [OrderedMap.get?_insert, if_pos rfl]
  have hshow : Succeeds (node scene (.reference (.mk "x" [] false l' p')))
      { st with scope := st.scope.insert "x" v } (.ofText (st.heap.text v))
      { st with scope := st.scope.insert "x" v } :=
    succeeds_node_reference (succeeds_variable hx) hnull
  have hnodes := succeeds_nodes_cons hassign (succeeds_nodes_cons hshow (succeeds_nodes_nil _))
  rwa [String.append_empty, String.empty_append] at hnodes

end Render

/-! ### Texts of integers -/

/-- What the text of an integer is read as. A minus sign is an operator, and the digits of the
least integer are read as a double. -/
def integerLiteral (n : Int64) : Expr :=
  if n = Int64.minValue then .unary .negate (.float 9223372036854775808.0) .start
  else if n.toInt < 0 then .unary .negate (.int (.ofNat n.toInt.natAbs)) .start
  else .int n

/-- What the text of an integer means: the integer, and a double if it is the least one. -/
def writtenValue (n : Int64) : Value :=
  if n = Int64.minValue then .float (-9223372036854775808.0) else .int n

theorem numberValue_minValue :
    numberValue (Nat.toDigits 10 Int64.minValue.toInt.natAbs) none =
      .float 9223372036854775808.0 := by
  have hdouble : Json.Read.nearestDouble? 9223372036854775808 0 =
      some 9223372036854775808.0 := by
    decide +kernel
  have hvalue : Json.Read.digitsValue (Nat.toDigits 10 9223372036854775808) =
      9223372036854775808 :=
    digitsValue_toDigits _
  change numberValue (Nat.toDigits 10 9223372036854775808) none = _
  simp [numberValue, hvalue, hdouble]

/-- Without its sign, every integer but the least one has 63 bits. -/
theorem natAbs_toInt_lt {n : Int64} (hmin : n ≠ Int64.minValue) : n.toInt.natAbs < 2 ^ 63 := by
  have hle := n.le_toInt
  have hlt := n.toInt_lt
  have hne : n.toInt ≠ -2 ^ 63 := fun h => hmin (Int64.toInt_inj.mp h)
  omega

/-- The text of an integer is read as its digits with the sign before them. -/
theorem readsItem_toString (n : Int64) :
    ReadsItem innerExpr (Expr.unplaced noLiteral) (integerLiteral n)
      (' ' :: (toString n.toInt).toList) := by
  have hblank : Blanks [' '] := BlankRun.blank.2
  rw [toList_toString_int]
  by_cases hn : n.toInt < 0
  · obtain ⟨c, rest, hcs, hc⟩ := toDigits_head n.toInt.natAbs
    have hdigits : ReadsPrimary _ (Nat.toDigits 10 n.toInt.natAbs) :=
      .wholeNumber (hcs ▸ List.cons_ne_nil c rest) fun d hd => isDigit_of_mem_toDigits hd
    obtain ⟨hcblank, hcunary, -⟩ := not_mem_of_isDigit hc
    have hoperand := (hdigits.parses hcs hcblank hcunary (Nat.le_refl _)).reads
    have hnegated := @ReadsAt.minus _ .start _ hoperand
    have hminus := hnegated.parses.loosen (List.cons_ne_nil _ _)
      (Nat.le_refl _) (Nat.zero_le _)
    have hliteral : integerLiteral n =
        .unary .negate (numberValue (Nat.toDigits 10 n.toInt.natAbs) none) .start := by
      rw [integerLiteral]
      split_ifs with hmin
      · rw [hmin, numberValue_minValue]
      · have hlt := natAbs_toInt_lt hmin
        rw [numberValue_of_lt (by rwa [digitsValue_toDigits]), digitsValue_toDigits]
    rw [if_pos hn, hliteral]
    exact hminus.readsItem ⟨'-', _, rfl, rfl, by decide⟩ hblank
  · have hdigits := ReadsPrimary.int (not_lt.mp hn)
    have habs : n.toInt.natAbs = n.toInt.toNat := by omega
    have hliteral : integerLiteral n = .int n := by
      have hmin : n ≠ Int64.minValue := by
        rintro rfl
        exact hn (by decide)
      rw [integerLiteral, if_neg hmin, if_neg hn]
    obtain ⟨c, rest, hcs, hc⟩ := toDigits_head n.toInt.toNat
    obtain ⟨hcblank, hcunary, hcloser⟩ := not_mem_of_isDigit hc
    rw [if_neg hn, habs, hliteral]
    exact hdigits.readsItem hcs hcblank hcunary hcloser hblank

namespace Render

variable {scene : Scene} {st : State}

theorem succeeds_negate {v : Value} {e : Expr} {position : Position} (hnull : v.isNull = false)
    (he : Succeeds (expr scene e) st v st) :
    Succeeds (expr scene (.unary .negate e position)) st v.negate st := by
  refine succeeds_bind_iff.mpr ⟨_, _, he, ?_⟩
  rw [negation, hnull]
  rfl

/-- What the text of an integer is read as means the integer, and a double if it is the least
one. -/
theorem succeeds_integerLiteral {n : Int64} {e : Expr}
    (he : e.unplaced noLiteral = (integerLiteral n).unplaced noLiteral) :
    Succeeds (expr scene e) st (writtenValue n) st := by
  rw [integerLiteral] at he
  rw [writtenValue]
  split_ifs at he ⊢ with hmin hn
  · obtain ⟨operand, p, rfl, hoperand⟩ := Expr.exists_unary_of_unplaced he
    obtain rfl := Expr.eq_float_of_unplaced hoperand
    have hdigits : Succeeds (expr scene (.float 9223372036854775808.0)) st
        (.float 9223372036854775808.0) st := rfl
    exact succeeds_negate rfl hdigits
  · obtain ⟨operand, p, rfl, hoperand⟩ := Expr.exists_unary_of_unplaced he
    obtain rfl := Expr.eq_int_of_unplaced hoperand
    have hdigits : Succeeds (expr scene (.int (.ofNat n.toInt.natAbs))) st
        (.int (.ofNat n.toInt.natAbs)) st := rfl
    have hopposite : -((n.toInt.natAbs : Nat) : Int) = n.toInt := by omega
    have hnegate : (Value.int (.ofNat n.toInt.natAbs)).negate = .int n := by
      rw [Value.negate, Int64.toInt_ofNat_of_lt (natAbs_toInt_lt hmin), hopposite, int64?_toInt]
    exact hnegate ▸ succeeds_negate rfl hdigits
  · obtain rfl := Expr.eq_int_of_unplaced he
    rfl

end Render

/-! ### Writing integers back -/

/-- The source that assigns the text of an integer to `x` and renders `x`. -/
def integerSource (n : Int64) : String := assignAndShow (toString n.toInt)

/-- What the source of an integer does in any state. -/
theorem evaluate_integerSource (config : Config) (hosts : Hosts) (template : String) (n : Int64)
    (st : State) :
    (evaluate config hosts template (integerSource n)).run.run st =
      (.ok (st.heap.text (writtenValue n)),
        { st with scope := st.scope.insert "x" (writtenValue n) }) := by
  obtain ⟨scene, hscene⟩ := exists_scene_of_evaluate_nodes config hosts template
  obtain ⟨l, p, value, position, l', p', hparse, hvalue⟩ :=
    parse_assignAndShow (readsItem_toString n)
  have hnull : writtenValue n ≠ .null := by
    rw [writtenValue]
    split <;> exact nofun
  exact hscene hparse (Render.succeeds_assignAndShow (Render.succeeds_integerLiteral hvalue) hnull)

/-- The source of an integer binds `x` to it and renders its text, in every state. -/
def WritesBack (n : Int64) : Prop :=
  ∀ (config : Config) (hosts : Hosts) (template : String) (st : State),
    (evaluate config hosts template (integerSource n)).run.run st =
      (.ok (toString n.toInt), { st with scope := st.scope.insert "x" (.int n) })

theorem not_writesBack_minValue : ¬WritesBack Int64.minValue := by
  intro h
  have hstates := (h {} [] "" default).symm.trans (evaluate_integerSource {} [] "" _ default)
  have hscopes := congrArg State.scope (Prod.mk.inj hstates).2
  have hvalues := congrArg (OrderedMap.get? · "x") hscopes
  simp only [OrderedMap.get?_insert, if_true, writtenValue] at hvalues
  cases hvalues

/-- **Integers can be written as literals**, except for the least one: the text of every other
integer binds a variable to the integer, whose text is rendered. -/
theorem writesBack_iff (n : Int64) : WritesBack n ↔ n ≠ Int64.minValue := by
  constructor
  · rintro h rfl
    exact not_writesBack_minValue h
  · intro hn config hosts template st
    have hvalue : writtenValue n = .int n := if_neg hn
    rw [evaluate_integerSource, hvalue]
    rfl

/-- The text of the least integer binds the variable to a double, whose text has an exponent. -/
theorem exists_integer_not_written_back :
    ∃ n : Int64, integerSource n = "#set($x = -9223372036854775808)$x" ∧
      (evaluate {} [] "t" (integerSource n)).run.run default =
        (.ok "-9.223372036854776E18",
          ⟨.empty, .ofList [("x", .float (-9223372036854775808.0))]⟩) ∧
      ¬WritesBack n := by
  have htext : Tree.numberLayout.text (-9223372036854775808.0) = "-9.223372036854776E18" := by
    decide +kernel
  refine ⟨Int64.minValue, rfl, ?_, not_writesBack_minValue⟩
  rw [evaluate_integerSource, ← htext]
  rfl

end GatewayMapping.Template
