import GatewayMapping.Proofs.Decimal.WholeNumbers
import GatewayMapping.Proofs.Rendering.Refinement

/-!
# Comparing integers

Templates compare integers in two ways. The operators of order compare them exactly, whereas `==`,
`!=` and the method `compareTo` compare the doubles nearest to them. Two integers that share their
nearest double are equal in the second way, and different in the first one.

So the comparisons of two integers agree with one another exactly if the integers are the same or
have different doubles, and this is so for all integers of up to 53 bits
(`Render.comparisons_coherent_iff`).

## Main definitions

* `Template.BinaryOp.IsComparison`: the operators that compare.
* `Comparison`: what the comparisons of two integers give.
* `Comparison.Coherent`: when they agree with one another.

## Main results

* `Render.succeeds_comparison`, `Render.succeeds_compareTo`: integers compare as in `Comparison`.
* `Render.comparisons_coherent_iff`: the integers whose comparisons agree with one another.
-/

namespace GatewayMapping

open Decimal (ofWhole rank)
open Template (BinaryOp)

/-- The operator compares two values. -/
def Template.BinaryOp.IsComparison : BinaryOp → Prop
  | .eq | .ne | .lt | .le | .gt | .ge => True
  | _ => False

/-- What the comparisons of two values give: the operators of comparison, and `compareTo`. -/
structure Comparison where
  holds : BinaryOp → Bool
  order : Int64

private theorem natAbs_toInt_le (n : Int64) : n.toInt.natAbs ≤ 2 ^ 64 := by
  have := n.le_toInt
  have := n.toInt_lt
  omega

namespace Comparison

/-- How templates compare two integers. -/
def ofIntegers (m n : Int64) : Comparison where
  holds
    | .eq => ofWhole m.toInt == ofWhole n.toInt
    | .ne => !(ofWhole m.toInt == ofWhole n.toInt)
    | op => Value.agrees op (compare m.toInt n.toInt)
  order :=
    if ofWhole m.toInt < ofWhole n.toInt then -1
    else if ofWhole n.toInt < ofWhole m.toInt then 1
    else 0

/-- How values compare that are in an order. -/
def ofOrdering (o : Ordering) : Comparison where
  holds
    | .eq => o == .eq
    | .ne => !(o == .eq)
    | op => Value.agrees op o
  order :=
    match o with
    | .lt => -1
    | .eq => 0
    | .gt => 1

/-- Comparisons of two integers agree with one another, and only equal integers are equal. -/
structure Coherent (m n : Int64) (c : Comparison) : Prop where
  /-- Exactly one of the three holds. -/
  trichotomy : (c.holds .lt).toNat + (c.holds .eq).toNat + (c.holds .gt).toNat = 1
  le : c.holds .le = (c.holds .lt || c.holds .eq)
  ge : c.holds .ge = (c.holds .gt || c.holds .eq)
  ne : c.holds .ne = !c.holds .eq
  order_neg : c.order < 0 ↔ c.holds .lt = true
  order_zero : c.order = 0 ↔ c.holds .eq = true
  order_pos : 0 < c.order ↔ c.holds .gt = true
  eq : c.holds .eq = true → m = n

variable {m n : Int64}

theorem coherent_ofOrdering :
    (ofOrdering (compare m.toInt n.toInt)).Coherent m n := by
  rcases lt_trichotomy m.toInt n.toInt with h | h | h
  · rw [compare_lt_iff_lt.mpr h]
    constructor <;> simp [ofOrdering, Value.agrees]
  · rw [compare_eq_iff_eq.mpr h]
    constructor <;> simp [ofOrdering, Value.agrees]
    exact Int64.toInt_inj.mp h
  · rw [compare_gt_iff_gt.mpr h]
    constructor <;> simp [ofOrdering, Value.agrees]

/-- Where doubles are in the order of their integers, all comparisons show this order. -/
theorem ofIntegers_of_compare_rank
    (h : compare (rank m.toInt) (rank n.toInt) = compare m.toInt n.toInt) :
    ofIntegers m n = ofOrdering (compare m.toInt n.toInt) := by
  have hm := natAbs_toInt_le m
  have hn := natAbs_toInt_le n
  have heq : (ofWhole m.toInt == ofWhole n.toInt) = (compare m.toInt n.toInt == .eq) := by
    rw [Bool.eq_iff_iff, Decimal.ofWhole_beq_iff hm hn, beq_iff_eq, ← h, compare_eq_iff_eq]
  have hlt : ofWhole m.toInt < ofWhole n.toInt ↔ compare m.toInt n.toInt = .lt := by
    rw [Decimal.ofWhole_lt_iff hm hn, ← h, compare_lt_iff_lt]
  have hgt : ofWhole n.toInt < ofWhole m.toInt ↔ compare m.toInt n.toInt = .gt := by
    rw [Decimal.ofWhole_lt_iff hn hm, ← h, compare_gt_iff_gt]
  simp only [ofIntegers, ofOrdering, heq, hlt, hgt]
  cases compare m.toInt n.toInt <;> rfl

theorem coherent_ofIntegers_iff :
    (ofIntegers m n).Coherent m n ↔ m = n ∨ ¬ofWhole m.toInt == ofWhole n.toInt := by
  constructor
  · intro h
    by_cases heq : ofWhole m.toInt == ofWhole n.toInt
    · exact .inl (h.eq heq)
    · exact .inr heq
  · intro h
    have hrank := (Decimal.compare_rank_eq_iff (natAbs_toInt_le m) (natAbs_toInt_le n)).mpr
      (h.imp_left (congrArg Int64.toInt))
    rw [ofIntegers_of_compare_rank hrank]
    exact coherent_ofOrdering

end Comparison

namespace Template.Render

variable {scene : Scene} {st st₁ st₂ : State} {a b v : Value} {m n : Int64}

/-- An operator of comparison has the value that it gives for the values of its operands. -/
theorem succeeds_operator {left right : Expr} {position : Position}
    (hleft : Succeeds (expr scene left) st a st₁)
    (hright : Succeeds (expr scene right) st₁ b st₂) {op : BinaryOp} (hop : op.IsComparison)
    (hvalue : Succeeds (operation scene op position a b left right) st₂ v st₂) :
    Succeeds (expr scene (.binary op left right position)) st v st₂ := by
  have hexpr : expr scene (.binary op left right position) = (do
      let a ← expr scene left
      let b ← expr scene right
      operation scene op position a b left right) := by
    cases op with
    | and => exact hop.elim
    | or => exact hop.elim
    | _ => rfl
  rw [hexpr]
  exact succeeds_bind_iff.mpr ⟨_, _, hleft, succeeds_bind_iff.mpr ⟨_, _, hright, hvalue⟩⟩

/-- A method of the value of a variable, which leaves the containers alone. -/
theorem succeeds_method {name method : String} {other : Expr} {quiet : Bool} {literal : String}
    {position : Position} (hname : st.scope.get? name = some a) (hnull : a.isNull = false)
    (hother : Succeeds (expr scene other) st b st₁)
    (hcall : Method.invoke scene.hosts st₁.heap a method [b] = .ok (v, st₁.heap)) :
    Succeeds (expr scene (.reference (.mk name [.method method [other]] quiet literal position)))
      st v st₁ := by
  have hargs : Succeeds (exprs scene [other]) st [b] st₁ :=
    succeeds_bind_iff.mpr ⟨_, _, hother, rfl⟩
  rw [expr]
  exact succeeds_reference hname (succeeds_step_method _ hnull hargs hcall)

/-- Integers compare in the same way whatever expressions they are the values of. -/
theorem succeeds_comparison {left right : Expr} (position : Position)
    (hleft : Succeeds (expr scene left) st (.int m) st₁)
    (hright : Succeeds (expr scene right) st₁ (.int n) st₂) {op : BinaryOp}
    (hop : op.IsComparison) :
    Succeeds (expr scene (.binary op left right position)) st
      (.bool ((Comparison.ofIntegers m n).holds op)) st₂ := by
  refine succeeds_operator hleft hright hop ?_
  cases op with
  | eq => rfl
  | ne => rfl
  | lt => rfl
  | le => rfl
  | gt => rfl
  | ge => rfl
  | _ => exact hop.elim

/-- The method compares the value of a variable with any integer. -/
theorem succeeds_compareTo {name : String} {other : Expr} (quiet : Bool) (literal : String)
    (position : Position) (hname : st.scope.get? name = some (.int m))
    (hother : Succeeds (expr scene other) st (.int n) st₁) :
    Succeeds
      (expr scene (.reference (.mk name [.method "compareTo" [other]] quiet literal position))) st
      (.int (Comparison.ofIntegers m n).order) st₁ :=
  succeeds_method hname rfl hother rfl

/-- Wherever a template compares two integers, the comparison comes out in one way. -/
structure Compares (m n : Int64) (c : Comparison) : Prop where
  operator {scene : Scene} {st st₁ st₂ : State} {left right : Expr} (position : Position)
    (hleft : Succeeds (expr scene left) st (.int m) st₁)
    (hright : Succeeds (expr scene right) st₁ (.int n) st₂) {op : BinaryOp}
    (hop : op.IsComparison) :
    Succeeds (expr scene (.binary op left right position)) st (.bool (c.holds op)) st₂
  method {scene : Scene} {st st₁ : State} {name : String} {other : Expr} (quiet : Bool)
    (literal : String) (position : Position) (hname : st.scope.get? name = some (.int m))
    (hother : Succeeds (expr scene other) st (.int n) st₁) :
    Succeeds
      (expr scene (.reference (.mk name [.method "compareTo" [other]] quiet literal position))) st
      (.int c.order) st₁

/-- **The comparisons of two integers agree with one another** exactly if the integers are the same
or have different doubles, which all different integers of up to 53 bits have. -/
theorem comparisons_coherent_iff (m n : Int64) :
    ∃ c, Compares m n c ∧
      (c.Coherent m n ↔ m = n ∨ ¬ofWhole m.toInt == ofWhole n.toInt) ∧
      (m.toInt.natAbs ≤ 2 ^ 53 ∧ n.toInt.natAbs ≤ 2 ^ 53 → c.Coherent m n) := by
  refine ⟨.ofIntegers m n, ⟨succeeds_comparison, succeeds_compareTo⟩,
    Comparison.coherent_ofIntegers_iff, fun ⟨hm, hn⟩ => ?_⟩
  refine Comparison.coherent_ofIntegers_iff.mpr (or_iff_not_imp_left.mpr fun hne heq => ?_)
  exact hne (Int64.toInt_inj.mp ((Decimal.ofWhole_beq_iff_eq hm hn).mp heq))

/-- The least positive integer that is no double has the double of the integer before it. It is
equal to that integer and greater than it. -/
theorem exists_comparisons_not_coherent :
    ∃ scene st position, ∃ m n : Int64, m ≠ n ∧ st.scope.get? "a" = some (.int m) ∧
      st.scope.get? "b" = some (.int n) ∧
      let a : Expr := .reference (.mk "a" [] false "$a" position)
      let b : Expr := .reference (.mk "b" [] false "$b" position)
      let order : Reference := .mk "a" [.method "compareTo" [b]] false "$a.compareTo($b)" position
      Succeeds (expr scene (.binary .eq a b position)) st (.bool true) st ∧
        Succeeds (expr scene (.binary .gt a b position)) st (.bool true) st ∧
        Succeeds (expr scene (.reference order)) st (.int 0) st := by
  let m : Int64 := 9007199254740993
  let n : Int64 := 9007199254740992
  let scene : Scene := ⟨{}, [], "t", none⟩
  let st : State := ⟨.empty, .ofList [("a", .int m), ("b", .int n)]⟩
  have ha : Succeeds (expr scene (.reference (.mk "a" [] false "$a" .start))) st (.int m) st := rfl
  have hb : Succeeds (expr scene (.reference (.mk "b" [] false "$b" .start))) st (.int n) st := rfl
  have heq : (Comparison.ofIntegers m n).holds .eq = true := by decide +kernel
  have hgt : (Comparison.ofIntegers m n).holds .gt = true := by decide +kernel
  have horder : (Comparison.ofIntegers m n).order = 0 := by decide +kernel
  refine ⟨scene, st, .start, m, n, by decide, rfl, rfl, ?_, ?_, ?_⟩
  · exact heq ▸ succeeds_comparison .start ha hb trivial
  · exact hgt ▸ succeeds_comparison .start ha hb trivial
  · exact horder ▸ succeeds_compareTo false "$a.compareTo($b)" .start rfl hb

end Template.Render

end GatewayMapping
