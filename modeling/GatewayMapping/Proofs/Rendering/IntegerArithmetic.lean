import GatewayMapping.Proofs.Rendering.Refinement

/-!
# Computing with integers

Sums, differences, products, quotients and remainders of integers are integers wherever the exact
result is one of 64 bits. An exact result beyond them is rounded to a double, and a division by
zero gives null (`Value.IsExact`).

There is one exception. The quotient of the least integer and `-1` is beyond 64 bits, and then its
remainder counts as beyond them too, although it is zero: it comes out as a double
(`Render.integer_arithmetic_exact_iff`).

## Main definitions

* `Template.BinaryOp.IsArithmetic`: the operators that compute.
* `Value.exactResult?`: what they mean for whole numbers.
* `Value.IsExact`: a value that is what an operator is to give for two integers.
* `Render.Computes`: what an operator gives for two integers, wherever it stands.

## Main results

* `Render.computes_iff`: an operator gives one value for two integers.
* `Render.integer_arithmetic_exact_iff`: when it is the exact one.
-/

namespace GatewayMapping

open Decimal (ofWhole)
open Template (BinaryOp)

namespace Template.BinaryOp

/-- The operator computes with numbers. -/
def IsArithmetic : BinaryOp → Prop
  | .add | .sub | .mul | .div | .mod => True
  | _ => False

theorem isArithmetic_add : BinaryOp.add.IsArithmetic := trivial

theorem isArithmetic_mul : BinaryOp.mul.IsArithmetic := trivial

theorem isArithmetic_div : BinaryOp.div.IsArithmetic := trivial

theorem isArithmetic_mod : BinaryOp.mod.IsArithmetic := trivial

end Template.BinaryOp

/-! ### Integers of 64 bits -/

theorem toInt_bounds (m : Int64) : -int64End ≤ m.toInt ∧ m.toInt < int64End :=
  ⟨m.le_toInt, m.toInt_lt⟩

theorem int64?_eq_some_iff {k : Int} {i : Int64} : int64? k = some i ↔ k = i.toInt := by
  constructor
  · intro h
    rw [int64?] at h
    split at h
    · case isTrue hk =>
      rw [← Option.some.inj h]
      exact (Int64.toInt_ofInt_of_le hk.1 hk.2).symm
    · cases h
  · rintro rfl
    exact int64?_toInt i

theorem int64?_eq_none_iff {k : Int} : int64? k = none ↔ k < -int64End ∨ int64End ≤ k := by
  rw [int64?]
  split
  · case isTrue hk => exact iff_of_false (Option.some_ne_none _) (by omega)
  · case isFalse hk => exact iff_of_true rfl (by omega)

/-- Of two whole numbers only the least integer and `-1` have a quotient beyond the integers. -/
theorem int64?_tdiv_eq_none_iff (m n : Int64) :
    int64? (m.toInt.tdiv n.toInt) = none ↔ m = Int64.minValue ∧ n = -1 := by
  constructor
  · intro h
    have hm := toInt_bounds m
    have hq := int64?_eq_none_iff.mp h
    have habs : (m.toInt.tdiv n.toInt).natAbs = m.toInt.natAbs / n.toInt.natAbs :=
      Int.natAbs_tdiv ..
    have hle : m.toInt.natAbs / n.toInt.natAbs ≤ m.toInt.natAbs := Nat.div_le_self ..
    unfold int64End at hm hq
    rcases hq with hq | hq
    · omega
    -- The quotient is as large as the dividend can be, so the divisor has the magnitude one.
    have hleast : m.toInt = -9223372036854775808 := by omega
    have hlarge : m.toInt.natAbs = 9223372036854775808 := by omega
    have hone : n.toInt.natAbs = 1 := by
      rw [hlarge] at habs
      rcases Nat.lt_or_ge n.toInt.natAbs 2 with hlt | hge
      · have : n.toInt.natAbs ≠ 0 := fun h0 => by
          rw [h0, Nat.div_zero] at habs
          omega
        omega
      · have := Nat.div_le_div_left hge (Nat.zero_lt_two) (a := 9223372036854775808)
        omega
    have hne : n.toInt ≠ 1 := fun h1 => by
      rw [h1, Int.tdiv_one] at hq
      omega
    exact ⟨Int64.toInt_inj.mp hleast, Int64.toInt_inj.mp (show n.toInt = -1 by omega)⟩
  · rintro ⟨rfl, rfl⟩
    decide

namespace Value

/-- What an operator means for two whole numbers, if it means anything: a quotient is rounded
toward zero, and a remainder has the sign of the dividend. -/
def exactResult? (op : BinaryOp) (m n : Int) : Option Int :=
  match op with
  | .add => some (m + n)
  | .sub => some (m - n)
  | .mul => some (m * n)
  | .div => if n = 0 then none else some (m.tdiv n)
  | .mod => if n = 0 then none else some (m.tmod n)
  | _ => none

/-- The value that an operator is to give for two integers. -/
inductive IsExact (op : BinaryOp) (m n : Int64) : Value → Prop
  /-- There is no result. -/
  | undefined (h : exactResult? op m.toInt n.toInt = none) : IsExact op m n .null
  /-- The result is an integer of 64 bits. -/
  | whole {r : Int64} (h : exactResult? op m.toInt n.toInt = some r.toInt) : IsExact op m n (.int r)
  /-- The result is beyond them, and it is computed once more with the doubles of the operands. -/
  | rounded {r : Int} {x : Float} (h : exactResult? op m.toInt n.toInt = some r)
      (hr : r < Int64.minValue.toInt ∨ Int64.maxValue.toInt < r)
      (hx : inexact op (ofWhole m.toInt) (ofWhole n.toInt) = .float x) : IsExact op m n (.float x)

variable {op : BinaryOp} {m n : Int64}

/-- A remainder is between zero and the dividend. -/
theorem tmod_between (a b : Int) :
    0 ≤ a.tmod b ∧ a.tmod b ≤ a ∨ a ≤ a.tmod b ∧ a.tmod b ≤ 0 := by
  have habs : (a.tmod b).natAbs ≤ a.natAbs := by
    rw [Int.natAbs_tmod]
    exact Nat.mod_le ..
  rcases Int.le_total 0 a with ha | ha
  · have := Int.tmod_nonneg b ha
    omega
  · have := Int.tmod_nonneg b (Int.neg_nonneg_of_nonpos ha)
    rw [Int.neg_tmod] at this
    omega

theorem int64?_tmod (m : Int64) (k : Int) :
    int64? (m.toInt.tmod k) = some (.ofInt (m.toInt.tmod k)) := by
  have := toInt_bounds m
  have := tmod_between m.toInt k
  unfold int64? int64End at *
  exact if_pos (by omega)

/-- The operation on integers gives the exact result if it is an integer, and nothing else. -/
theorem wholeResult?_eq (hop : op.IsArithmetic)
    (h : ¬(op = .mod ∧ m = Int64.minValue ∧ n = -1)) :
    wholeResult? op m.toInt n.toInt = (exactResult? op m.toInt n.toInt).bind int64? := by
  cases op with
  | add => rfl
  | sub => rfl
  | mul => rfl
  | div =>
    by_cases hn : n.toInt = 0
    · simp [wholeResult?, exactResult?, hn]
    · simp [wholeResult?, exactResult?, hn]
  | mod =>
    by_cases hn : n.toInt = 0
    · simp [wholeResult?, exactResult?, hn]
    · obtain ⟨q, hq⟩ := Option.ne_none_iff_exists'.mp
        (mt (int64?_tdiv_eq_none_iff m n).mp fun hmn => h ⟨rfl, hmn⟩)
      simp only [wholeResult?, exactResult?, if_neg hn, hq, Option.map_some, Option.bind_some,
        int64?_tmod]
      rw [← int64?_eq_some_iff.mp hq, ← Int.tmod_def]
  | _ => exact hop.elim

theorem arithmetic_int_int :
    arithmetic op (.int m) (.int n) =
      (wholeResult? op m.toInt n.toInt).elim
        (inexact op (ofWhole m.toInt) (ofWhole n.toInt)) .int := by
  rw [arithmetic]
  cases wholeResult? op m.toInt n.toInt with
  | none => rfl
  | some r => rfl

theorem inexact_ne_int (x y : Float) (r : Int64) : inexact op x y ≠ .int r := by
  unfold inexact
  cases op <;> grind

/-- A division by zero gives null for doubles, too. -/
theorem inexact_of_exactResult?_none (hop : op.IsArithmetic)
    (h : exactResult? op m.toInt n.toInt = none) :
    inexact op (ofWhole m.toInt) (ofWhole n.toInt) = .null := by
  have hzero : (ofWhole 0 == 0) = true := by decide +kernel
  cases op with
  | div =>
    have hn : n.toInt = 0 := by simpa [exactResult?] using h
    rw [hn, inexact, if_pos hzero]
  | mod =>
    have hn : n.toInt = 0 := by simpa [exactResult?] using h
    rw [hn, inexact, if_pos hzero]
  | add => cases h
  | sub => cases h
  | mul => cases h
  | _ => exact hop.elim

/-- What is beyond the integers has a double as its result. -/
theorem exists_inexact_eq_float (hop : op.IsArithmetic) {r : Int}
    (hr : exactResult? op m.toInt n.toInt = some r) (hnone : int64? r = none) :
    ∃ x, inexact op (ofWhole m.toInt) (ofWhole n.toInt) = .float x := by
  cases op with
  | add => exact ⟨_, rfl⟩
  | sub => exact ⟨_, rfl⟩
  | mul => exact ⟨_, rfl⟩
  | div =>
    have hq : m.toInt.tdiv n.toInt = r := by
      by_cases hn : n.toInt = 0
      · simp [exactResult?, hn] at hr
      · simpa [exactResult?, hn] using hr
    obtain ⟨-, rfl⟩ := (int64?_tdiv_eq_none_iff m n).mp (hq ▸ hnone)
    have hone : ¬(ofWhole (-1 : Int64).toInt == 0) = true := by decide +kernel
    exact ⟨_, by rw [inexact, if_neg hone]⟩
  | mod =>
    have hq : m.toInt.tmod n.toInt = r := by
      by_cases hn : n.toInt = 0
      · simp [exactResult?, hn] at hr
      · simpa [exactResult?, hn] using hr
    rw [← hq, int64?_tmod] at hnone
    cases hnone
  | _ => exact hop.elim

/-- The result of an operation on integers is the exact one, with one exception. -/
theorem isExact_arithmetic_iff (hop : op.IsArithmetic) :
    IsExact op m n (arithmetic op (.int m) (.int n)) ↔
      ¬(op = .mod ∧ m = Int64.minValue ∧ n = -1) := by
  rw [arithmetic_int_int]
  constructor
  · rintro hexact ⟨rfl, rfl, rfl⟩
    have hnone : wholeResult? .mod Int64.minValue.toInt (-1 : Int64).toInt = none := by decide
    have hzero : exactResult? .mod Int64.minValue.toInt (-1 : Int64).toInt = some 0 := by decide
    rw [hnone, Option.elim_none] at hexact
    generalize hv : inexact .mod _ _ = v at hexact
    cases hexact with
    | undefined h => exact absurd (hzero.symm.trans h) nofun
    | whole => exact inexact_ne_int _ _ _ hv
    | rounded h hr =>
      obtain rfl := Option.some.inj (hzero.symm.trans h)
      exact absurd hr (by decide)
  · intro h
    rw [wholeResult?_eq hop h]
    cases hexact : exactResult? op m.toInt n.toInt with
    | none =>
      rw [Option.bind_none, Option.elim_none, inexact_of_exactResult?_none hop hexact]
      exact .undefined hexact
    | some r =>
      rw [Option.bind_some]
      cases hr : int64? r with
      | none =>
        obtain ⟨x, hx⟩ := exists_inexact_eq_float hop hexact hr
        rw [Option.elim_none, hx]
        refine .rounded hexact ?_ hx
        exact (int64?_eq_none_iff.mp hr).imp_right (Int.lt_of_lt_of_le (by decide))
      | some i =>
        obtain rfl := int64?_eq_some_iff.mp hr
        exact .whole hexact

theorem wholeResult?_of_arithmetic_eq_int {r : Int64}
    (h : arithmetic op (.int m) (.int n) = .int r) :
    wholeResult? op m.toInt n.toInt = some r := by
  rw [arithmetic_int_int] at h
  cases hr : wholeResult? op m.toInt n.toInt with
  | none =>
    rw [hr, Option.elim_none] at h
    exact absurd h (inexact_ne_int _ _ _)
  | some i =>
    rw [hr] at h
    cases h
    rfl

/-- A quotient times the divisor is an integer, and with the remainder it is the dividend. -/
theorem arithmetic_div_mul_add_mod {q r : Int64} (hq : arithmetic .div (.int m) (.int n) = .int q)
    (hr : arithmetic .mod (.int m) (.int n) = .int r) :
    ∃ p, arithmetic .mul (.int q) (.int n) = .int p ∧
      arithmetic .add (.int p) (.int r) = .int m := by
  replace hq := wholeResult?_of_arithmetic_eq_int hq
  replace hr := wholeResult?_of_arithmetic_eq_int hr
  have hn : n.toInt ≠ 0 := fun hn => by simp [wholeResult?, hn] at hq
  simp only [wholeResult?, if_neg hn] at hq hr
  have hdiv : m.toInt.tdiv n.toInt = q.toInt := int64?_eq_some_iff.mp hq
  have hmod : m.toInt.tmod n.toInt = r.toInt := by
    rw [hq, Option.map_some, ← hdiv, ← Int.tmod_def, ← int64?_tmod] at hr
    exact int64?_eq_some_iff.mp hr
  have hsum : q.toInt * n.toInt + r.toInt = m.toInt := by
    rw [← hdiv, ← hmod, Int.mul_comm]
    exact Int.mul_tdiv_add_tmod ..
  obtain ⟨p, hp⟩ : ∃ p, int64? (q.toInt * n.toInt) = some p := by
    refine Option.ne_none_iff_exists'.mp fun hnone => ?_
    have hout := int64?_eq_none_iff.mp hnone
    have hm := toInt_bounds m
    have hbetween := tmod_between m.toInt n.toInt
    omega
  have hsum' : p.toInt + r.toInt = m.toInt := by rw [← int64?_eq_some_iff.mp hp, hsum]
  refine ⟨p, ?_, ?_⟩
  · rw [arithmetic_int_int, wholeResult?, hp]
    rfl
  · rw [arithmetic_int_int, wholeResult?, hsum', int64?_toInt]
    rfl

end Value

namespace Template.Render

/-- Wherever the operator stands between two expressions that have these integers as values, it
gives this value. -/
def Computes (op : BinaryOp) (m n : Int64) (v : Value) : Prop :=
  ∀ {scene : Scene} {st st₁ st₂ : State} {left right : Expr} (position : Position),
    Succeeds (expr scene left) st (.int m) st₁ → Succeeds (expr scene right) st₁ (.int n) st₂ →
      Succeeds (expr scene (.binary op left right position)) st v st₂

variable {op : BinaryOp} {m n : Int64} {v : Value}

theorem computes_arithmetic (hop : op.IsArithmetic) :
    Computes op m n (Value.arithmetic op (.int m) (.int n)) := by
  intro scene st st₁ st₂ left right position hleft hright
  have hexpr : expr scene (.binary op left right position) = (do
      let a ← expr scene left
      let b ← expr scene right
      operation scene op position a b left right) := by
    cases op with
    | and => exact hop.elim
    | or => exact hop.elim
    | _ => rfl
  rw [hexpr]
  refine succeeds_bind_iff.mpr ⟨_, _, hleft, succeeds_bind_iff.mpr ⟨_, _, hright, ?_⟩⟩
  cases op with
  | add => rfl
  | sub => rfl
  | mul => rfl
  | div => rfl
  | mod => rfl
  | _ => exact hop.elim

/-- An operator gives one value for two integers. -/
theorem computes_iff (hop : op.IsArithmetic) :
    Computes op m n v ↔ v = Value.arithmetic op (.int m) (.int n) := by
  constructor
  · intro h
    let scene : Scene := ⟨{}, [], "", none⟩
    have hm : Succeeds (expr scene (.int m)) default (.int m) default := rfl
    have hn : Succeeds (expr scene (.int n)) default (.int n) default := rfl
    have hv := (h .start hm hn).symm.trans (computes_arithmetic hop .start hm hn)
    exact Except.ok.inj (Prod.mk.inj hv).1
  · rintro rfl
    exact computes_arithmetic hop

/-- **Arithmetic on integers is exact** for all operators and operands, except for the remainder
of the least integer and `-1`. Whenever a quotient and a remainder are integers, the quotient times
the divisor plus the remainder is the dividend. -/
theorem integer_arithmetic_exact_iff (m n : Int64) :
    (∀ op : BinaryOp, op.IsArithmetic → ∃ v, Computes op m n v ∧
      (v.IsExact op m n ↔ ¬(op = .mod ∧ m = Int64.minValue ∧ n = -1))) ∧
    ∀ q r, Computes .div m n (.int q) → Computes .mod m n (.int r) →
      ∃ p, Computes .mul q n (.int p) ∧ Computes .add p r (.int m) := by
  refine ⟨fun op hop => ⟨_, computes_arithmetic hop, Value.isExact_arithmetic_iff hop⟩,
    fun q r hq hr => ?_⟩
  obtain ⟨p, hp, hm⟩ := Value.arithmetic_div_mul_add_mod
    ((computes_iff BinaryOp.isArithmetic_div).mp hq).symm
    ((computes_iff BinaryOp.isArithmetic_mod).mp hr).symm
  exact ⟨p, (computes_iff BinaryOp.isArithmetic_mul).mpr hp.symm,
    (computes_iff BinaryOp.isArithmetic_add).mpr hm.symm⟩

/-- The quotient and the remainder of -7 and 2 are -3 and -1. -/
theorem integer_arithmetic_neg_seven_two :
    ∃ p, Computes .mul (-3) 2 (.int p) ∧ Computes .add p (-1) (.int (-7)) :=
  (integer_arithmetic_exact_iff (-7) 2).2 (-3) (-1)
    ((computes_iff BinaryOp.isArithmetic_div).mpr (by decide))
    ((computes_iff BinaryOp.isArithmetic_mod).mpr (by decide))

/-- The remainder of the least integer and `-1` is zero, and it comes out as a negative zero among
the doubles. -/
theorem exists_integer_remainder_not_exact :
    ∃ m n : Int64, ∃ x : Float, Value.exactResult? .mod m.toInt n.toInt = some 0 ∧
      Computes .mod m n (.float x) ∧ ¬(Value.float x).IsExact .mod m n := by
  have hfloat : Value.arithmetic .mod (.int Int64.minValue) (.int (-1)) = .float (-0.0) := by
    decide +kernel
  refine ⟨Int64.minValue, -1, -0.0, by decide,
    (computes_iff BinaryOp.isArithmetic_mod).mpr hfloat.symm, fun h => ?_⟩
  exact (Value.isExact_arithmetic_iff BinaryOp.isArithmetic_mod).mp (hfloat ▸ h) ⟨rfl, rfl, rfl⟩

end Template.Render

end GatewayMapping
