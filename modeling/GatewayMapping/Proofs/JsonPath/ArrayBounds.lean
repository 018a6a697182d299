import Mathlib
import GatewayMapping.Proofs.JsonPath.Filters
import GatewayMapping.Proofs.Rendering.IntegerArithmetic

/-!
# Indexes and slices of arrays

An index and the bounds of a slice are integers of 64 bits, and a negative one counts from the end
of the array. Where they lead is computed here with unbounded integers and natural numbers. A
machine has words for them: it adds a bound to the length, limits the sum and takes it for a
position. As long as the length is a word, both ways agree for all bounds, up to the least integer
and the greatest one. No sum leaves the words, and no position is outside the array
(`array_bounds`).

## Main definitions

* `boundPlace`, `slicePositions`: what a slice is to select, by position.
* `Word.slice`, `Word.item?`: slices and items with the arithmetic of words, which may go wrong.

## Main results

* `slice_by_position`: a slice selects the items at the positions between its bounds.
* `Word.slice_eq_ok`, `Word.item?_eq_ok`: computing with words goes well and makes no difference.
-/

namespace GatewayMapping.JsonPath

variable {items : List Json} {n : Nat} {i b : Int64} {first last : Option Int64}

/-! ### Slices by position -/

/-- Where a bound of a slice stands in an array of `n` items. -/
def boundPlace (n : Nat) (b : Int64) : Int := if 0 ≤ b.toInt then b.toInt else max (n + b.toInt) 0

/-- The positions between the bounds of a slice in an array of `n` items, which is between the
beginning and the end where there are none. -/
def slicePositions (n : Nat) (first last : Option Int64) : List Nat :=
  (List.range n).filter fun i =>
    (first.map (boundPlace n)).getD 0 ≤ i ∧ i < (last.map (boundPlace n)).getD n

/-- Positions up to the end of the array cannot tell a bound from its place. -/
theorem bound_eq_min (n : Nat) (b : Int64) : (bound n b : Int) = min (boundPlace n b) n := by
  unfold bound boundPlace
  split <;> split <;> omega

theorem getD_bound_eq_min (n : Nat) (b? : Option Int64) {d : Nat} (hd : d ≤ n) :
    ((b?.map (bound n)).getD d : Int) = min ((b?.map (boundPlace n)).getD d) n := by
  cases b? with
  | none => exact (Int.min_eq_left (Int.ofNat_le.mpr hd)).symm
  | some b => exact bound_eq_min n b

/-- The positions from one on up to another one. -/
theorem drop_take_range (low high n : Nat) :
    ((List.range n).take high).drop low =
      (List.range n).filter fun i => low ≤ i ∧ i < high := by
  have hfilter : (List.range n).filter (fun i => decide (low ≤ i ∧ i < high)) =
      ((List.range n).filter fun i => i < high).filter fun i => low ≤ i := by
    rw [List.filter_filter]
    exact List.filter_congr fun i _ => Bool.decide_and ..
  rw [hfilter, ← List.Ico.zero_bot, List.Ico.filter_lt, List.Ico.filter_le, List.Ico.zero_bot,
    List.take_range, List.range_eq_range', List.drop_range', List.Ico, Nat.min_comm high,
    Nat.zero_add, Nat.mul_one, Nat.zero_max]

/-- A slice selects the items at the positions between its bounds, in their order. -/
theorem slice_by_position (items : List Json) (first last : Option Int64) :
    (slice items first last).map some =
      (slicePositions items.length first last).map (items[·]?) := by
  have hlow := getD_bound_eq_min items.length first (Nat.zero_le _)
  rw [Nat.cast_zero] at hlow
  have hhigh := getD_bound_eq_min items.length last (Nat.le_refl _)
  unfold slice slicePositions
  dsimp only
  rw [List.map_drop, List.map_take, map_some_eq_map_range, ← List.map_take, ← List.map_drop,
    drop_take_range]
  congr 1
  refine List.filter_congr fun i hi => ?_
  have hi := List.mem_range.mp hi
  rw [decide_eq_decide]
  omega

/-- Two slices that meet at a bound are the whole array. -/
theorem slice_append_slice (items : List Json) (k : Int64) :
    slice items none (some k) ++ slice items (some k) none = items := by
  have hall : (items.take items.length) = items := List.take_length
  simp only [slice, Option.map_none, Option.map_some, Option.getD_none, Option.getD_some, hall,
    List.drop_zero, List.take_append_drop]

/-! ### Indexes -/

/-- The position of an index is inside the array, and a negative index counts from the end. -/
theorem position?_eq_some_iff {p : Nat} :
    position? n i = some p ↔
      p < n ∧ (p : Int) = if i.toInt < 0 then n + i.toInt else i.toInt := by
  unfold position?
  dsimp only
  generalize (if i.toInt < 0 then (n : Int) + i.toInt else i.toInt) = k
  rw [Option.ite_none_right_eq_some, Option.some.injEq]
  omega

/-- An index has a position from the first item, counted from the end, to the last item. -/
theorem position?_isSome_iff : (position? n i).isSome ↔ -n ≤ i.toInt ∧ i.toInt < n := by
  rw [Option.isSome_iff_exists]
  constructor
  · rintro ⟨p, hp⟩
    have hp := position?_eq_some_iff.mp hp
    omega
  · intro h
    refine ⟨(if i.toInt < 0 then n + i.toInt else i.toInt).toNat, position?_eq_some_iff.mpr ?_⟩
    omega

theorem position?_of_nonneg (hi : 0 ≤ i.toInt) (hn : i.toInt < n) :
    position? n i = some i.toInt.toNat := by
  rw [position?_eq_some_iff]
  omega

/-- A negative index has the same position as an index from the beginning. -/
theorem exists_position?_eq (h : n < 2 ^ 63) (hn : -n ≤ i.toInt) (hi : i.toInt < 0) :
    ∃ j : Int64, j.toInt = i.toInt + n ∧ position? n j = position? n i := by
  have hj : (Int64.ofInt (i.toInt + n)).toInt = i.toInt + n :=
    Int64.toInt_ofInt_of_le (by omega) (by omega)
  refine ⟨_, hj, Option.ext fun p => ?_⟩
  rw [position?_eq_some_iff, position?_eq_some_iff, hj, if_pos hi, if_neg (by omega), Int.add_comm]

theorem isSome_bind_getElem? (items : List Json) (i : Int64) :
    ((position? items.length i).bind fun p => items[p]?).isSome =
      (position? items.length i).isSome := by
  cases h : position? items.length i with
  | none => rfl
  | some p =>
    rw [Option.bind_some, List.getElem?_eq_getElem (position?_eq_some_iff.mp h).1]
    rfl

theorem bind_getElem?_of_nonneg (items : List Json) (hi : 0 ≤ i.toInt) :
    ((position? items.length i).bind fun p => items[p]?) = items[i.toInt.toNat]? := by
  by_cases hn : i.toInt < items.length
  · rw [position?_of_nonneg hi hn, Option.bind_some]
  · rw [List.getElem?_eq_none (by omega), ← Option.not_isSome_iff_eq_none, isSome_bind_getElem?,
      position?_isSome_iff]
    omega

/-! ### Arithmetic of words -/

namespace Word

/-- What can go wrong with words. -/
inductive Mishap where
  /-- A sum is no word. -/
  | overflow
  /-- There is no item at a position. -/
  | outside
  deriving DecidableEq, Repr

/-- The sum of two words. -/
def sum (a b : Int64) : Except Mishap Int64 :=
  match int64? (a.toInt + b.toInt) with
  | some c => .ok c
  | none => .error .overflow

/-- A word as a position: a negative one is far beyond every array. -/
def toPosition (a : Int64) : Nat := a.toUInt64.toNat

/-- Where a bound of a slice stands in an array of this length. -/
def bound (length b : Int64) : Except Mishap Int64 :=
  if b < 0 then return max (← sum length b) 0 else return min b length

/-- The place of a bound, or a given place where there is no bound. -/
def boundOr (length place : Int64) : Option Int64 → Except Mishap Int64
  | some b => bound length b
  | none => return place

/-- The items from one position on up to another one. -/
def between (items : List Json) (low high : Nat) : Except Mishap (List Json) :=
  if low ≤ high ∧ high ≤ items.length then .ok (items.extract low high) else .error .outside

/-- The items from a bound on up to another one. -/
def slice (items : List Json) (first last : Option Int64) : Except Mishap (List Json) := do
  let length := Int64.ofNat items.length
  let low ← boundOr length 0 first
  let high ← boundOr length length last
  if high ≤ low then return [] else between items (toPosition low) (toPosition high)

/-- An index counted from the beginning of an array of this length. -/
def fromStart (length i : Int64) : Except Mishap Int64 :=
  if i < 0 then sum length i else return i

/-- The position that an index means in an array of `n` items. -/
def position? (n : Nat) (i : Int64) : Except Mishap (Option Nat) := do
  let length := Int64.ofNat n
  let p ← fromStart length i
  return if 0 ≤ p ∧ p < length then some (toPosition p) else none

/-- The item at a position. -/
def itemAt (items : List Json) (p : Nat) : Except Mishap Json :=
  match items[p]? with
  | some x => .ok x
  | none => .error .outside

/-- The item that an index leads to. -/
def item? (items : List Json) (i : Int64) : Except Mishap (Option Json) := do
  match ← position? items.length i with
  | none => return none
  | some p => return some (← itemAt items p)

variable {a b length : Int64}

theorem toPosition_eq (h : 0 ≤ a.toInt) : toPosition a = a.toInt.toNat := by
  have hcond := BitVec.toInt_eq_toNat_cond a.toBitVec
  have hlt : a.toBitVec.toNat < 2 ^ 64 := a.toBitVec.isLt
  change 0 ≤ a.toBitVec.toInt at h
  change a.toBitVec.toNat = a.toBitVec.toInt.toNat
  split at hcond <;> omega

theorem toInt_max (a b : Int64) : (max a b).toInt = max a.toInt b.toInt := by
  rw [show max a b = if a ≤ b then b else a from rfl, Int.max_def]
  simp only [Int64.le_iff_toInt_le]
  split <;> rfl

theorem toInt_min (a b : Int64) : (min a b).toInt = min a.toInt b.toInt := by
  rw [show min a b = if a ≤ b then a else b from rfl, Int.min_def]
  simp only [Int64.le_iff_toInt_le]
  split <;> rfl

theorem lt_zero_iff : a < 0 ↔ a.toInt < 0 := Int64.lt_iff_toInt_lt

/-- A length and a negative word have a sum. -/
theorem sum_eq_ok (hlength : length.toInt = n) (hb : b.toInt < 0) :
    ∃ c, sum length b = .ok c ∧ c.toInt = n + b.toInt := by
  have hl := toInt_bounds length
  have hb' := toInt_bounds b
  obtain ⟨c, hc⟩ : ∃ c, int64? (length.toInt + b.toInt) = some c := by
    refine Option.ne_none_iff_exists'.mp fun hnone => ?_
    have hout := int64?_eq_none_iff.mp hnone
    omega
  refine ⟨c, by rw [sum, hc], ?_⟩
  rw [← hlength]
  exact (int64?_eq_some_iff.mp hc).symm

theorem bound_eq_ok (hlength : length.toInt = n) (b : Int64) :
    ∃ c, bound length b = .ok c ∧ c.toInt = JsonPath.bound n b := by
  rw [bound, JsonPath.bound]
  simp only [lt_zero_iff]
  split
  · case isTrue hb =>
    obtain ⟨c, hsum, hc⟩ := sum_eq_ok hlength hb
    refine ⟨max c 0, by rw [hsum]; rfl, ?_⟩
    rw [toInt_max, hc, Int64.toInt_zero]
    omega
  · case isFalse hb =>
    refine ⟨min b length, rfl, ?_⟩
    rw [toInt_min]
    omega

theorem boundOr_eq_ok {place : Int64} {d : Nat} (hlength : length.toInt = n)
    (hplace : place.toInt = d) (b? : Option Int64) :
    ∃ c, boundOr length place b? = .ok c ∧
      c.toInt = ((b?.map (JsonPath.bound n)).getD d : Nat) := by
  cases b? with
  | some b => exact bound_eq_ok hlength b
  | none => exact ⟨place, rfl, hplace⟩

/-- Slices with words select what slices with unbounded numbers select. -/
theorem slice_eq_ok (h : items.length < 2 ^ 63) (first last : Option Int64) :
    slice items first last = .ok (JsonPath.slice items first last) := by
  have hlength := Int64.toInt_ofNat_of_lt h
  have hzero : (0 : Int64).toInt = (0 : Nat) := Int64.toInt_zero
  obtain ⟨low, hlow, hlow'⟩ := boundOr_eq_ok hlength hzero first
  obtain ⟨high, hhigh, hhigh'⟩ := boundOr_eq_ok hlength hlength last
  have hinside := getD_bound_eq_min items.length last (Nat.le_refl _)
  rw [← hhigh'] at hinside
  have hslice : slice items first last =
      if high ≤ low then .ok [] else between items (toPosition low) (toPosition high) := by
    rw [slice, hlow, hhigh]
    rfl
  rw [hslice, JsonPath.slice]
  simp only [Int64.le_iff_toInt_le]
  split
  · case isTrue hempty =>
    rw [List.drop_eq_nil_of_le]
    rw [List.length_take]
    omega
  · case isFalse hempty =>
    rw [toPosition_eq (by omega), toPosition_eq (by omega), hlow', hhigh', Int.toNat_natCast,
      Int.toNat_natCast, between, if_pos (by omega), List.extract_eq_take_drop, List.drop_take]

theorem fromStart_eq_ok (hlength : length.toInt = n) (i : Int64) :
    ∃ p, fromStart length i = .ok p ∧
      p.toInt = if i.toInt < 0 then n + i.toInt else i.toInt := by
  rw [fromStart]
  simp only [lt_zero_iff]
  split
  · case isTrue hi => exact sum_eq_ok hlength hi
  · case isFalse hi => exact ⟨i, rfl, rfl⟩

theorem position?_eq_ok (h : n < 2 ^ 63) (i : Int64) :
    position? n i = .ok (JsonPath.position? n i) := by
  have hlength := Int64.toInt_ofNat_of_lt h
  obtain ⟨p, hp, hp'⟩ := fromStart_eq_ok hlength i
  have hposition : position? n i =
      .ok (if 0 ≤ p ∧ p < .ofNat n then some (toPosition p) else none) := by
    rw [position?, hp]
    rfl
  rw [hposition, JsonPath.position?]
  simp only [← hp', Int64.le_iff_toInt_le, Int64.lt_iff_toInt_lt, hlength, Int64.toInt_zero]
  split
  · case isTrue hrange => rw [toPosition_eq hrange.1]
  · rfl

theorem item?_eq_ok (h : items.length < 2 ^ 63) (i : Int64) :
    item? items i = .ok ((JsonPath.position? items.length i).bind fun p => items[p]?) := by
  rw [item?, position?_eq_ok h]
  cases hp : JsonPath.position? items.length i with
  | none => rfl
  | some p =>
    have hlt : p < items.length := (position?_eq_some_iff.mp hp).1
    have hitem : itemAt items p = .ok items[p] := by rw [itemAt, List.getElem?_eq_getElem hlt]
    rw [Option.bind_some, List.getElem?_eq_getElem hlt]
    change (itemAt items p >>= fun x => pure (some x)) = _
    rw [hitem]
    rfl

end Word

/-! ### Selectors -/

/-- **Slices and indexes for all bounds**: a slice selects the items at the positions between its
bounds, and two slices that meet are the whole array. An index leads to an item from the negated
length on up to the length, and a negative one to the same item as its sum with the length.
Computing with words goes well for all of them and gives the same. -/
theorem array_bounds {items : List Json} (h : items.length < 2 ^ 63) (root : Json) :
    (∀ first last, ∃ found,
      (Selector.slice first last).nodes root (.array items) = found ∧
      found.map some = (slicePositions items.length first last).map (items[·]?) ∧
      Word.slice items first last = .ok found) ∧
    (∀ k, (Selector.slice none (some k)).nodes root (.array items) ++
      (Selector.slice (some k) none).nodes root (.array items) = items) ∧
    ∀ deep i, ∃ found,
      (Step.mk deep (.index i)).target? (.array items) = found ∧
      (Selector.index i).nodes root (.array items) = found.toList ∧
      Word.item? items i = .ok found ∧
      (found.isSome ↔ -items.length ≤ i.toInt ∧ i.toInt < items.length) ∧
      (0 ≤ i.toInt → found = items[i.toInt.toNat]?) ∧
      (-items.length ≤ i.toInt → i.toInt < 0 → ∃ j : Int64, j.toInt = i.toInt + items.length ∧
        (Step.mk deep (.index j)).target? (.array items) = found) := by
  refine ⟨fun first last => ⟨_, rfl, ?_, ?_⟩, fun k => ?_,
    fun deep i => ⟨_, rfl, ?_, ?_, ?_, ?_, ?_⟩⟩
  · rw [Selector.nodes]
    exact slice_by_position items first last
  · rw [Selector.nodes]
    exact Word.slice_eq_ok h first last
  · rw [Selector.nodes, Selector.nodes]
    exact slice_append_slice items k
  · rw [Selector.nodes]
    rfl
  · exact Word.item?_eq_ok h i
  · rw [Step.target?, isSome_bind_getElem?, position?_isSome_iff]
  · exact bind_getElem?_of_nonneg items
  · intro hn hi
    obtain ⟨j, hj, hposition⟩ := exists_position?_eq h hn hi
    exact ⟨j, hj, by rw [Step.target?, Step.target?, hposition]⟩

/-- From the least integer up to the last of three items. -/
theorem array_bounds_three :
    let items : List Json := [.int 10, .int 20, .int 30]
    items.length < 2 ^ 63 ∧ ∃ found,
      (Selector.slice (some Int64.minValue) (some (-1))).nodes .null (.array items) = found ∧
      found.map some = [some (.int 10), some (.int 20)] ∧
      Word.slice items (some Int64.minValue) (some (-1)) = .ok found := by
  intro items
  have hlength : items.length < 2 ^ 63 := by decide
  obtain ⟨found, hnodes, hfound, hword⟩ :=
    (array_bounds hlength .null).1 (some Int64.minValue) (some (-1))
  have hpositions : slicePositions items.length (some Int64.minValue) (some (-1)) = [0, 1] := by
    decide
  rw [hpositions] at hfound
  exact ⟨hlength, found, hnodes, hfound, hword⟩

end GatewayMapping.JsonPath
