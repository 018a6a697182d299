import GatewayMapping.Proofs.Decimal.WholeNumbers
import GatewayMapping.Proofs.JsonPath.Filters
import GatewayMapping.Proofs.JsonPath.RoundTrip

/-!
# Filters that compare whole numbers

A filter compares the numbers of an array with a number as the doubles nearest to them. The items
that are less, equal and greater are three parts of the array, each in the order of the array, but
the second one holds all items that share the double of the number. So filters select by value
exactly if no other number of the array shares its double.

## Main definitions

* `comparison`, `comparisonText`: the filter of the items that compare with a number in one way.
* `SelectsByValue`: filters select the numbers that their comparisons name.
* `ArePartsOf`: three lists that divide a list.

## Main results

* `find_comparisonText`: the items that such a filter selects.
* `selectsByValue_iff`: the arrays from which filters select by value.
-/

namespace GatewayMapping.JsonPath

open Decimal (ofWhole rank)

/-- A whole number that 64 bits hold with a sign or without. -/
def IsInteger64 (n : Int) : Prop := -2 ^ 63 ≤ n ∧ n < 2 ^ 64

instance (n : Int) : Decidable (IsInteger64 n) := inferInstanceAs (Decidable (_ ∧ _))

/-- Whether a comparison holds of things in an order. -/
def CompareOp.admits : CompareOp → Ordering → Bool
  | .eq, o => o == .eq
  | .ne, o => !(o == .eq)
  | .lt, o => o.isLT
  | .le, o => o.isLE
  | .gt, o => o.isGT
  | .ge, o => o.isGE

/-- The condition that an item compares with a number in one way. -/
def comparison (op : CompareOp) (n : Int) : Filter :=
  .compare (.path false (.ofSteps [] none)) op (.literal (.int n))

/-- The path to the items of an array that compare with a number in one way. -/
def comparisonText (op : CompareOp) (n : Int) : String :=
  "$[?(@ " ++ String.ofList op.sign ++ " " ++ toString n ++ ")]"

section

variable {m n : Int} {op : CompareOp}

theorem IsInteger64.natAbs_le (h : IsInteger64 n) : n.natAbs ≤ 2 ^ 64 := by
  obtain ⟨hmin, hmax⟩ := h
  omega

/-- Filters compare whole numbers as their doubles. -/
theorem holds_int (hm : IsInteger64 m) (hn : IsInteger64 n) :
    op.holds (.int m) (.int n) = op.admits (compare (rank m) (rank n)) := by
  have horder : order? (.int m) (.int n) = some (compare (rank m) (rank n)) := by
    change (if ofWhole m < ofWhole n then some Ordering.lt
      else if ofWhole m == ofWhole n then some .eq
      else if ofWhole n < ofWhole m then some .gt else none) = _
    simp only [Decimal.ofWhole_lt_iff hm.natAbs_le hn.natAbs_le,
      Decimal.ofWhole_beq_iff hm.natAbs_le hn.natAbs_le,
      Decimal.ofWhole_lt_iff hn.natAbs_le hm.natAbs_le]
    rcases lt_trichotomy (rank m) (rank n) with h | h | h
    · rw [if_pos h, compare_lt_iff_lt.mpr h]
    · rw [if_neg h.not_lt, if_pos h, compare_eq_iff_eq.mpr h]
    · rw [if_neg h.not_gt, if_neg h.ne', if_pos h, compare_gt_iff_gt.mpr h]
  rw [CompareOp.holds.eq_def, horder]
  cases op <;> cases compare (rank m) (rank n) <;> rfl

theorem admits_compare :
    op.admits (compare m n) = match op with
      | .eq => decide (m = n)
      | .ne => decide (m ≠ n)
      | .lt => decide (m < n)
      | .le => decide (m ≤ n)
      | .gt => decide (n < m)
      | .ge => decide (n ≤ m) := by
  rcases lt_trichotomy m n with h | rfl | h
  · rw [compare_lt_iff_lt.mpr h]
    cases op <;> simp [CompareOp.admits, h, h.le, h.ne, h.not_gt]
  · rw [compare_eq_iff_eq.mpr rfl]
    cases op <;> simp [CompareOp.admits]
  · rw [compare_gt_iff_gt.mpr h]
    cases op <;> simp [CompareOp.admits, h, h.le, h.ne', h.not_gt]

/-- An item is compared with a constant. -/
theorem holds_compare (root x y : Json) :
    (Filter.compare (.path false (.ofSteps [] none)) op (.literal y)).holds root x =
      op.holds x y := by
  simp [Filter.holds, Operand.value?, Route.ofSteps, Route.target?, Route.function, target?]

theorem holds_comparison (root x : Json) :
    (comparison op n).holds root x = op.holds x (.int n) :=
  holds_compare root x (.int n)

theorem plainSteps_comparison (hn : IsInteger64 n) :
    PlainSteps [.mk false (.filter (comparison op n))] := by
  have hitem : PlainSteps [] := trivial
  exact ⟨⟨Route.isPlain_ofSteps hitem none, hn⟩, trivial⟩

theorem ofList_pathText_comparison :
    String.ofList (pathText [.mk false (.filter (comparison op n))] none) =
      comparisonText op n := by
  apply String.toList_inj.mp
  simp [comparisonText, comparison, pathText, stepsText, functionText, Step.text, Selector.text,
    Filter.text, around, Operand.text, Route.ofSteps, Route.text, constantText]

/-- A filter selects the items that compare as it asks for. -/
theorem find_comparisonText (hn : IsInteger64 n) (items : List Json) :
    find (.array items) (comparisonText op n) =
      .ok (.array (items.filter fun x => op.holds x (.int n))) := by
  let source := comparisonText op n
  have hplain : PlainSteps [.mk false (.filter (comparison op n))] := plainSteps_comparison hn
  have hparse : parse source = .ok (filterPath source false (comparison op n)) := by
    have h := parse_plainSteps hplain none
    rwa [ofList_pathText_comparison] at h
  have hholds : (comparison op n).holds (.array items) = fun x => op.holds x (.int n) :=
    funext (holds_comparison (.array items))
  calc find (.array items) source
      = (filterPath source false (comparison op n)).evaluate (.array items) := by
        rw [find, hparse]
        rfl
    _ = .ok (.array (items.filter fun x => op.holds x (.int n))) := by
        rw [evaluate_filterPath, nodes_filter_array, hholds]

end

/-! ### Filters of arrays of whole numbers -/

/-- Whatever the comparison is, a filter selects the numbers that compare in this way. -/
structure SelectsByValue (xs : List Int) (n : Int) (select : CompareOp → List Int) : Prop where
  eq : select .eq = xs.filter (· = n)
  ne : select .ne = xs.filter (· ≠ n)
  lt : select .lt = xs.filter (· < n)
  le : select .le = xs.filter (· ≤ n)
  gt : select .gt = xs.filter (n < ·)
  ge : select .ge = xs.filter (n ≤ ·)

/-- Every number of a list is in one of three parts, each in the order of the list. -/
def ArePartsOf (xs less same greater : List Int) : Prop :=
  ∃ side : Int → Ordering, less = xs.filter (side · = .lt) ∧ same = xs.filter (side · = .eq) ∧
    greater = xs.filter (side · = .gt)

section

variable {n : Int} {xs : List Int}

theorem find_comparisonText_ints (hn : IsInteger64 n) (hxs : ∀ x ∈ xs, IsInteger64 x)
    (op : CompareOp) :
    find (.array (xs.map .int)) (comparisonText op n) =
      .ok (.array ((xs.filter fun x => op.admits (compare (rank x) (rank n))).map .int)) := by
  rw [find_comparisonText hn, List.filter_map]
  congr 3
  exact List.filter_congr fun x hx => holds_int (hxs x hx) hn

theorem arePartsOf_admits (side : Int → Ordering) :
    ArePartsOf xs (xs.filter fun x => CompareOp.lt.admits (side x))
      (xs.filter fun x => CompareOp.eq.admits (side x))
      (xs.filter fun x => CompareOp.gt.admits (side x)) := by
  have hadmits (o : Ordering) : CompareOp.lt.admits o = decide (o = .lt) ∧
      CompareOp.eq.admits o = decide (o = .eq) ∧ CompareOp.gt.admits o = decide (o = .gt) := by
    cases o <;> decide
  refine ⟨side, ?_, ?_, ?_⟩
  · exact List.filter_congr fun x _ => (hadmits (side x)).1
  · exact List.filter_congr fun x _ => (hadmits (side x)).2.1
  · exact List.filter_congr fun x _ => (hadmits (side x)).2.2

/-- Where doubles are in the order of their numbers, filters select by value. -/
theorem selectsByValue_of_compare_rank
    (h : ∀ x ∈ xs, compare (rank x) (rank n) = compare x n) :
    SelectsByValue xs n fun op => xs.filter fun x => op.admits (compare (rank x) (rank n)) := by
  have hselect (op : CompareOp) : (xs.filter fun x => op.admits (compare (rank x) (rank n))) =
      xs.filter fun x => op.admits (compare x n) :=
    List.filter_congr fun x hx => by rw [h x hx]
  constructor <;>
    exact (hselect _).trans (List.filter_congr fun _ _ => admits_compare)

/-- **Filters select whole numbers by value** exactly if no number of the array but the one that
they compare with has the double of this number. In any case the numbers that are less, the ones
that are equal and those that are greater are three parts of the array. Numbers of up to 53 bits
are always selected by value. -/
theorem selectsByValue_iff (hn : IsInteger64 n) (hxs : ∀ x ∈ xs, IsInteger64 x) :
    ∃ select : CompareOp → List Int,
      (∀ op, find (.array (xs.map .int)) (comparisonText op n) =
        .ok (.array ((select op).map .int))) ∧
      ArePartsOf xs (select .lt) (select .eq) (select .gt) ∧
      (SelectsByValue xs n select ↔ ∀ x ∈ xs, x = n ∨ ¬ofWhole x == ofWhole n) ∧
      (n.natAbs ≤ 2 ^ 53 ∧ (∀ x ∈ xs, x.natAbs ≤ 2 ^ 53) → SelectsByValue xs n select) := by
  have hdouble {x : Int} (hx : x ∈ xs) :=
    Decimal.compare_rank_eq_iff (hxs x hx).natAbs_le hn.natAbs_le
  refine ⟨_, find_comparisonText_ints hn hxs, arePartsOf_admits _, ?_, ?_⟩
  · constructor
    · intro h x hx
      by_contra hne
      obtain ⟨hne, heq⟩ := not_or.mp hne
      rw [not_not, Decimal.ofWhole_beq_iff (hxs x hx).natAbs_le hn.natAbs_le,
        ← compare_eq_iff_eq] at heq
      have hselected : x ∈ xs.filter (· = n) :=
        h.eq ▸ List.mem_filter.mpr ⟨hx, beq_iff_eq.mpr heq⟩
      exact hne (by simpa using (List.mem_filter.mp hselected).2)
    · exact fun h => selectsByValue_of_compare_rank fun x hx => (hdouble hx).mpr (h x hx)
  · rintro ⟨hsmall, hsmalls⟩
    refine selectsByValue_of_compare_rank fun x hx => (hdouble hx).mpr ?_
    rw [Decimal.ofWhole_beq_iff_eq (hsmalls x hx) hsmall]
    exact Classical.em (x = n)

end

/-- Numbers of 64 bits, of which one is selected. -/
theorem selectsByValue_iff_large :
    let n : Int := 9007199254740993
    let xs : List Int := [9007199254740995, n, -9223372036854775808, 18446744073709551615]
    IsInteger64 n ∧ (∀ x ∈ xs, IsInteger64 x) ∧
      find (.array (xs.map .int)) "$[?(@ == 9007199254740993)]" = .ok (.array [.int n]) := by
  intro n xs
  have hn : IsInteger64 n := by decide
  have hxs : ∀ x ∈ xs, IsInteger64 x := by decide
  obtain ⟨select, hfind, -, hiff, -⟩ := selectsByValue_iff hn hxs
  have hvalue : SelectsByValue xs n select := hiff.mpr (by decide +kernel)
  have htext : comparisonText .eq n = "$[?(@ == 9007199254740993)]" := by decide +kernel
  have hselected : xs.filter (· = n) = [n] := by decide
  refine ⟨hn, hxs, ?_⟩
  rw [← htext, hfind, hvalue.eq, hselected]
  rfl

/-- A number is selected together with the one before it, which has the same double. -/
theorem exists_comparison_selecting_another :
    ∃ m n : Int, m ≠ n ∧ IsInteger64 m ∧ IsInteger64 n ∧
      find (.array [.int m, .int n]) (comparisonText .eq n) = .ok (.array [.int m, .int n]) ∧
      find (.array [.int m, .int n]) (comparisonText .ne n) = .ok (.array []) := by
  let m : Int := 9007199254740992
  let n : Int := 9007199254740993
  have hm : IsInteger64 m := by decide
  have hn : IsInteger64 n := by decide
  have hxs : ∀ x ∈ [m, n], IsInteger64 x := by simp [hm, hn]
  have heq : ([m, n].filter fun x => CompareOp.eq.admits (compare (rank x) (rank n))) = [m, n] := by
    decide +kernel
  have hne : ([m, n].filter fun x => CompareOp.ne.admits (compare (rank x) (rank n))) = [] := by
    decide +kernel
  have hfind := find_comparisonText_ints hn hxs
  refine ⟨m, n, by decide, hm, hn, (hfind .eq).trans ?_, (hfind .ne).trans ?_⟩
  · rw [heq]
    rfl
  · rw [hne]
    rfl

end GatewayMapping.JsonPath
