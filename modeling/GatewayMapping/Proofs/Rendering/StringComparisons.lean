import GatewayMapping.Proofs.Rendering.IntegerComparisons
import GatewayMapping.Proofs.Text.ByteOrder

/-!
# Comparing strings

Templates compare strings in two ways. The operators of order compare the bytes of the strings,
which come in the order of their characters, whereas the method `compareTo` gives the difference of
the first characters that differ, or else of the lengths. All comparisons of two strings show the
same order (`Render.string_orders_agree`).

The result of the method is an integer of 64 bits, and a string has fewer characters than these can
count.

## Main definitions

* `Comparison.ofStrings`: what the comparisons of two strings give.
* `Comparison.Lexical`: when they agree with one another and with the bytes of the strings.
* `Render.ComparesAs`: how templates compare two values.

## Main results

* `StringMethod.comparison_neg_iff`, `StringMethod.comparison_swap`: the difference that the method
  gives is one of an order.
* `Render.string_orders_agree`: the comparisons of strings agree.
-/

namespace GatewayMapping

open Template (BinaryOp)

/-! ### The difference of two texts -/

namespace StringMethod

variable {cs ds : List Char}

theorem comparison_nil_left (ds : List Char) : comparison [] ds = -ds.length :=
  Int.zero_sub _

theorem comparison_nil_right (cs : List Char) : comparison cs [] = cs.length := by
  cases cs with
  | nil => rfl
  | cons c cs => exact Int.sub_zero _

theorem comparison_swap (cs ds : List Char) : comparison ds cs = -comparison cs ds := by
  induction cs generalizing ds with
  | nil => rw [comparison_nil_left, comparison_nil_right, neg_neg]
  | cons c cs ih =>
    cases ds with
    | nil => rw [comparison_nil_left, comparison_nil_right]
    | cons d ds =>
      rw [comparison, comparison]
      by_cases h : c = d
      · rw [if_pos h, if_pos h.symm, ih]
      · rw [if_neg h, if_neg (Ne.symm h), neg_sub]

/-- The difference is negative exactly if the first text comes before the second one. -/
theorem comparison_neg_iff : comparison cs ds < 0 ↔ cs < ds := by
  induction cs generalizing ds with
  | nil =>
    rw [comparison_nil_left]
    cases ds with
    | nil => exact iff_of_false (by decide) (List.not_lt_nil [])
    | cons d ds => exact iff_of_true (by rw [List.length_cons]; omega) (List.nil_lt_cons d ds)
  | cons c cs ih =>
    cases ds with
    | nil =>
      rw [comparison_nil_right]
      exact iff_of_false (by omega) (List.not_lt_nil _)
    | cons d ds =>
      rw [comparison, List.cons_lt_cons_iff]
      by_cases h : c = d
      · rw [if_pos h, ih, h]
        simp only [lt_irrefl, true_and, false_or]
      · rw [if_neg h, Text.char_lt_iff]
        simp only [h, false_and, or_false]
        omega

theorem comparison_pos_iff : 0 < comparison cs ds ↔ ds < cs := by
  rw [← comparison_neg_iff, comparison_swap cs ds, neg_neg_iff_pos]

theorem comparison_eq_zero_iff : comparison cs ds = 0 ↔ cs = ds := by
  have hneg : comparison cs ds < 0 ↔ cs < ds := comparison_neg_iff
  have hpos : 0 < comparison cs ds ↔ ds < cs := comparison_pos_iff
  rcases lt_trichotomy cs ds with hlt | rfl | hgt
  · exact iff_of_false (hneg.mpr hlt).ne hlt.ne
  · exact iff_of_true
      (le_antisymm (not_lt.mp (hpos.not.mpr (lt_irrefl _)))
        (not_lt.mp (hneg.not.mpr (lt_irrefl _))))
      rfl
  · exact iff_of_false (hpos.mpr hgt).ne' hgt.ne'

/-- The difference is an integer of 64 bits. -/
theorem comparison_bounds (hcs : cs.length < 2 ^ 63) (hds : ds.length < 2 ^ 63) :
    -2 ^ 63 ≤ comparison cs ds ∧ comparison cs ds < 2 ^ 63 := by
  induction cs generalizing ds with
  | nil =>
    rw [comparison_nil_left]
    omega
  | cons c cs ih =>
    cases ds with
    | nil =>
      rw [comparison_nil_right]
      omega
    | cons d ds =>
      rw [List.length_cons] at hcs hds
      rw [comparison]
      split_ifs with h
      · exact ih (by omega) (by omega)
      · have hc := Text.Utf8.toNat_valid c
        have hd := Text.Utf8.toNat_valid d
        omega

end StringMethod

/-! ### Comparisons of strings -/

namespace Comparison

/-- How templates compare two strings. -/
def ofStrings (s t : String) : Comparison where
  holds
    | .eq => s == t
    | .ne => !(s == t)
    | op => Value.agrees op (compare s t)
  order := .ofInt (StringMethod.comparison s.toList t.toList)

/-- Comparisons of two strings agree with one another, and show the order of their bytes. -/
structure Lexical (s t : String) (c : Comparison) : Prop where
  order_neg : c.order < 0 ↔ c.holds .lt = true
  order_zero : c.order = 0 ↔ c.holds .eq = true
  order_pos : 0 < c.order ↔ c.holds .gt = true
  lt : c.holds .lt = true ↔ s.toUTF8.data.toList < t.toUTF8.data.toList
  eq : c.holds .eq = true ↔ s = t
  gt : c.holds .gt = true ↔ t.toUTF8.data.toList < s.toUTF8.data.toList
  le : c.holds .le = !c.holds .gt
  ge : c.holds .ge = !c.holds .lt
  ne : c.holds .ne = !c.holds .eq

variable {s t u : String}

theorem holds_lt_ofStrings : (ofStrings s t).holds .lt = true ↔ s < t := by
  rw [← compare_lt_iff_lt]
  exact Ordering.isLT_iff_eq_lt

theorem holds_gt_ofStrings : (ofStrings s t).holds .gt = true ↔ t < s := by
  rw [← compare_gt_iff_gt]
  exact Ordering.isGT_iff_eq_gt

section

variable (hs : s.toList.length < 2 ^ 63) (ht : t.toList.length < 2 ^ 63)
include hs ht

theorem toInt_order_ofStrings :
    (ofStrings s t).order.toInt = StringMethod.comparison s.toList t.toList :=
  have hbounds := StringMethod.comparison_bounds hs ht
  Int64.toInt_ofInt_of_le hbounds.1 hbounds.2

theorem order_ofStrings_neg_iff : (ofStrings s t).order < 0 ↔ s < t := by
  rw [Int64.lt_iff_toInt_lt, toInt_order_ofStrings hs ht, Int64.toInt_zero,
    StringMethod.comparison_neg_iff, String.lt_iff_toList_lt]

theorem order_ofStrings_pos_iff : 0 < (ofStrings s t).order ↔ t < s := by
  rw [Int64.lt_iff_toInt_lt, toInt_order_ofStrings hs ht, Int64.toInt_zero,
    StringMethod.comparison_pos_iff, String.lt_iff_toList_lt]

theorem order_ofStrings_eq_zero_iff : (ofStrings s t).order = 0 ↔ s = t := by
  rw [← Int64.toInt_inj, toInt_order_ofStrings hs ht, Int64.toInt_zero,
    StringMethod.comparison_eq_zero_iff, String.toList_inj]

theorem order_ofStrings_nonpos_iff : (ofStrings s t).order ≤ 0 ↔ s ≤ t := by
  rw [← Int64.not_lt, order_ofStrings_pos_iff hs ht, not_lt]

theorem lexical_ofStrings : (ofStrings s t).Lexical s t where
  order_neg := (order_ofStrings_neg_iff hs ht).trans holds_lt_ofStrings.symm
  order_zero := (order_ofStrings_eq_zero_iff hs ht).trans beq_iff_eq.symm
  order_pos := (order_ofStrings_pos_iff hs ht).trans holds_gt_ofStrings.symm
  lt := holds_lt_ofStrings.trans Text.Utf8.bytes_lt_bytes_iff.symm
  eq := beq_iff_eq
  gt := holds_gt_ofStrings.trans Text.Utf8.bytes_lt_bytes_iff.symm
  le := by
    change (compare s t).isLE = !(compare s t).isGT
    cases compare s t <;> rfl
  ge := by
    change (compare s t).isGE = !(compare s t).isLT
    cases compare s t <;> rfl
  ne := rfl

end

theorem order_ofStrings_swap (s t : String) :
    (ofStrings t s).order = -(ofStrings s t).order := by
  rw [ofStrings, ofStrings]
  dsimp only
  rw [StringMethod.comparison_swap s.toList, Int64.ofInt_neg]

end Comparison

/-! ### What templates compare -/

namespace Template.Render

/-- Wherever a template compares the two values, the comparison comes out in one way: with an
operator between expressions that have these values, and with the method of a variable. -/
structure ComparesAs (a b : Value) (c : Comparison) : Prop where
  operator {scene : Scene} {st st₁ st₂ : State} {left right : Expr} (position : Position)
    (hleft : Succeeds (expr scene left) st a st₁) (hright : Succeeds (expr scene right) st₁ b st₂)
    {op : BinaryOp} (hop : op.IsComparison) :
    Succeeds (expr scene (.binary op left right position)) st (.bool (c.holds op)) st₂
  method {scene : Scene} {st st₁ : State} {name : String} {other : Expr} (quiet : Bool)
    (literal : String) (position : Position) (hname : st.scope.get? name = some a)
    (hother : Succeeds (expr scene other) st b st₁) :
    Succeeds
      (expr scene (.reference (.mk name [.method "compareTo" [other]] quiet literal position))) st
      (.int c.order) st₁

/-- Strings compare in the same way whatever expressions they are the values of. -/
theorem comparesAs_ofStrings (s t : String) :
    ComparesAs (.string s) (.string t) (.ofStrings s t) where
  operator position hleft hright op hop := by
    refine succeeds_operator hleft hright hop ?_
    cases op with
    | eq => rfl
    | ne => rfl
    | lt => rfl
    | le => rfl
    | gt => rfl
    | ge => rfl
    | _ => exact hop.elim
  method quiet literal position hname hother := succeeds_method hname rfl hother rfl

open Comparison in
/-- **The orderings of strings agree.** The result of the method is negative, zero or positive as
the first string is less than, equal to or greater than the second one for the operators, which
compare the bytes. So it changes its sign with the sides, and is transitive. -/
theorem string_orders_agree (s t u : String) (hs : s.toList.length < 2 ^ 63)
    (ht : t.toList.length < 2 ^ 63) (hu : u.toList.length < 2 ^ 63) :
    ComparesAs (.string s) (.string t) (ofStrings s t) ∧ (ofStrings s t).Lexical s t ∧
      (ofStrings t s).order = -(ofStrings s t).order ∧
      ((ofStrings s t).order ≤ 0 → (ofStrings t u).order ≤ 0 → (ofStrings s u).order ≤ 0) := by
  refine ⟨comparesAs_ofStrings s t, lexical_ofStrings hs ht, order_ofStrings_swap s t, ?_⟩
  rw [order_ofStrings_nonpos_iff hs ht, order_ofStrings_nonpos_iff ht hu,
    order_ofStrings_nonpos_iff hs hu]
  exact le_trans

/-- The first string is the beginning of the others. These go on with the last character of the
basic plane and with one outside it, which comes later although its first unit of 16 bits is
less. -/
theorem string_orders_agree_supplementary :
    ∃ s t u : String, s.toList.length < 2 ^ 63 ∧ t.toList.length < 2 ^ 63 ∧
      u.toList.length < 2 ^ 63 ∧ t = s ++ "\uffff" ∧ u = s ++ "😀" ∧
      (Comparison.ofStrings s t).order = -1 ∧ (Comparison.ofStrings t u).order < 0 ∧
      (Comparison.ofStrings s u).order ≤ 0 ∧
      ComparesAs (.string s) (.string t) (.ofStrings s t) ∧
      (Comparison.ofStrings s t).Lexical s t := by
  have hs : "a".toList.length < 2 ^ 63 := by decide
  have ht : "a\uffff".toList.length < 2 ^ 63 := by decide
  have hu : "a😀".toList.length < 2 ^ 63 := by decide
  have hlt : (Comparison.ofStrings "a" "a\uffff").order = -1 := by decide
  have hlt' : (Comparison.ofStrings "a\uffff" "a😀").order < 0 := by decide
  obtain ⟨hcompares, hlexical, -, htrans⟩ := string_orders_agree _ _ _ hs ht hu
  exact ⟨_, _, _, hs, ht, hu, rfl, rfl, hlt, hlt', htrans (by decide) (by decide), hcompares,
    hlexical⟩

end Template.Render
end GatewayMapping
