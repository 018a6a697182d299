import Mathlib
import GatewayMapping.Decimal.Double

/-!
# Whole numbers as doubles

The double nearest to a whole number is the number rounded to 53 bits. Numbers of up to 53 bits are
kept as they are; of larger ones, several share a double. Rounding never turns the order around, and
this is what comparisons of doubles tell about the whole numbers that they come from.

The doubles of one sign are counted by their exponent and mantissa. `rank` is the count of the
double nearest to a whole number, and doubles of whole numbers compare as their ranks do
(`compare_ofWhole`). This is shown of the numbers whose magnitude is a 64-bit integer at most.

## Main definitions

* `roundedMantissa`: the mantissa of the double nearest to a whole number.
* `rank`: the place of this double among all doubles.

## Main results

* `rank_le_rank`: ranks are in the order of the numbers.
* `rank_lt_rank`: up to 53 bits no two numbers have one rank.
* `compare_ofWhole`: doubles of whole numbers compare as their ranks.
* `compare_rank_eq_iff`: doubles are in the order of their numbers unless two numbers share one.
-/

namespace GatewayMapping.Decimal

open Float.Model (Format UnpackedFloat totalExponent)
open Float.Model.UnpackedFloat (ExtendedMantissa Sign)

/-! ### Shifting bits out of a mantissa -/

/-- A mantissa and the two bits that remember what was shifted out of it, as one number. -/
private def weight (a : ExtendedMantissa) : Nat :=
  4 * a.mantissa + 2 * a.roundBit.toNat + a.stickyBit.toNat

private theorem weight_shiftRightOne_le {a b : ExtendedMantissa} (h : weight a ≤ weight b) :
    weight a.shiftRightOne ≤ weight b.shiftRightOne := by
  obtain ⟨m, r, s⟩ := a
  obtain ⟨m', r', s'⟩ := b
  have hbit (k : Nat) : (k % 2 != 0).toNat = k % 2 := by
    rcases Nat.mod_two_eq_zero_or_one k with hk | hk <;> simp [hk]
  simp only [weight, ExtendedMantissa.shiftRightOne, hbit] at h ⊢
  cases r <;> cases s <;> cases r' <;> cases s' <;> simp at h ⊢ <;> omega

private theorem shiftRight_succ (a : ExtendedMantissa) (k : Nat) :
    a >>> (k + 1) = (a >>> k).shiftRightOne := rfl

private theorem weight_shiftRight_le {a b : ExtendedMantissa} (h : weight a ≤ weight b)
    (k : Nat) :
    weight (a >>> k) ≤ weight (b >>> k) := by
  induction k with
  | zero => exact h
  | succ k ih => exact weight_shiftRightOne_le ih

private theorem mantissa_shiftRight (a : ExtendedMantissa) (k : Nat) :
    (a >>> k).mantissa = a.mantissa / 2 ^ k := by
  induction k with
  | zero => exact (Nat.div_one _).symm
  | succ k ih =>
    rw [shiftRight_succ, pow_succ, ← Nat.div_div_eq_div_mul, ← ih]
    rfl

private theorem rounded_le {a b : ExtendedMantissa} (h : weight a ≤ weight b) :
    a.roundedMantissa ≤ b.roundedMantissa := by
  obtain ⟨m, r, s⟩ := a
  obtain ⟨m', r', s'⟩ := b
  cases r <;> cases s <;> cases r' <;> cases s' <;>
    simp [weight, ExtendedMantissa.roundedMantissa, ExtendedMantissa.accuracy,
      UnpackedFloat.Accuracy.roundToNearestEven] at h ⊢ <;> omega

private theorem rounded_bounds (a : ExtendedMantissa) :
    a.mantissa ≤ a.roundedMantissa ∧ a.roundedMantissa ≤ a.mantissa + 1 := by
  obtain ⟨m, r, s⟩ := a
  cases r <;> cases s <;>
    simp [ExtendedMantissa.roundedMantissa, ExtendedMantissa.accuracy,
      UnpackedFloat.Accuracy.roundToNearestEven]
  omega

/-! ### The mantissa of the nearest double -/

/-- A whole number with 53 bits or more, all of them before the point. -/
private def widened (n : Nat) : ExtendedMantissa := ⟨n <<< (52 - n.log2), false, false⟩

/-- The mantissa of the double nearest to a whole number. It has 53 bits, or is the power of two
above them where rounding carries over. -/
def roundedMantissa (n : Nat) : Nat := (widened n >>> (n.log2 - 52)).roundedMantissa

section

variable {m n : Nat}

private theorem widened_bounds (hn : 0 < n) :
    2 ^ 52 * 2 ^ (n.log2 - 52) ≤ (widened n).mantissa ∧
      (widened n).mantissa < 2 ^ 53 * 2 ^ (n.log2 - 52) := by
  have hmantissa : (widened n).mantissa = n * 2 ^ (52 - n.log2) := Nat.shiftLeft_eq ..
  have hlow : 2 ^ 52 * 2 ^ (n.log2 - 52) = 2 ^ n.log2 * 2 ^ (52 - n.log2) := by
    rw [← pow_add, ← pow_add]
    congr 1
    omega
  have hhigh : 2 ^ 53 * 2 ^ (n.log2 - 52) = 2 ^ (n.log2 + 1) * 2 ^ (52 - n.log2) := by
    rw [← pow_add, ← pow_add]
    congr 1
    omega
  rw [hmantissa, hlow, hhigh]
  exact ⟨Nat.mul_le_mul_right _ (Nat.log2_self_le hn.ne'),
    Nat.mul_lt_mul_of_pos_right Nat.lt_log2_self (Nat.two_pow_pos _)⟩

theorem roundedMantissa_bounds (hn : 0 < n) :
    2 ^ 52 ≤ roundedMantissa n ∧ roundedMantissa n ≤ 2 ^ 53 := by
  obtain ⟨hlow, hhigh⟩ := widened_bounds hn
  obtain ⟨hdown, hup⟩ := rounded_bounds (widened n >>> (n.log2 - 52))
  have hpos : 0 < 2 ^ (n.log2 - 52) := Nat.two_pow_pos _
  rw [mantissa_shiftRight] at hdown hup
  have hlow' := (Nat.le_div_iff_mul_le hpos).mpr hlow
  have hhigh' := (Nat.div_lt_iff_lt_mul hpos).mpr hhigh
  exact ⟨hlow'.trans hdown, hup.trans hhigh'⟩

theorem roundedMantissa_le (h : m ≤ n) (hlog : m.log2 = n.log2) :
    roundedMantissa m ≤ roundedMantissa n := by
  have hweight : weight (widened m) ≤ weight (widened n) := by
    simp only [weight, widened, hlog, Nat.shiftLeft_eq]
    have := Nat.mul_le_mul_right (2 ^ (52 - n.log2)) h
    omega
  rw [roundedMantissa, roundedMantissa, hlog]
  exact rounded_le (weight_shiftRight_le hweight _)

/-- Nothing is rounded where 53 bits suffice. -/
theorem roundedMantissa_eq (hlog : n.log2 ≤ 52) :
    roundedMantissa n = n * 2 ^ (52 - n.log2) := by
  rw [roundedMantissa, Nat.sub_eq_zero_of_le hlog, ← Nat.shiftLeft_eq]
  rfl

/-! ### Rounding in the model of doubles -/

/-- The exponent that a double gets so that its mantissa has 53 bits. -/
private theorem targetExponent_eq {e : Int} (h : -1022 ≤ (n.log2 : Int) + e) :
    Format.binary64.targetExponent (totalExponent n e) = n.log2 + e - 52 := by
  simp only [Format.targetExponent, totalExponent, Format.mantissaBits, Format.minExponent]
  norm_num
  omega

private theorem shiftToTargetExponent_eq {e : Int} {k : Nat} (h : -1022 ≤ (n.log2 : Int) + e)
    (hk : n.log2 = 52 + k) :
    UnpackedFloat.shiftToTargetExponent .binary64 n e .exact =
      ((⟨n, false, false⟩ : ExtendedMantissa) >>> k, e + k) := by
  have hamount : ((n.log2 : Int) + e - 52 - e).toNat = k := by omega
  simp only [UnpackedFloat.shiftToTargetExponent,
    UnpackedFloat.shiftToExponent, targetExponent_eq h, hamount]
  rfl

private theorem log2_widened (hn : 0 < n) : (widened n).mantissa.log2 = 52 + (n.log2 - 52) := by
  obtain ⟨hlow, hhigh⟩ := widened_bounds hn
  have hne : (widened n).mantissa ≠ 0 := by
    have := Nat.two_pow_pos (n.log2 - 52)
    omega
  rw [Nat.log2_eq_iff hne, pow_add, pow_add, pow_add]
  omega

private theorem shift_normal {e : Int} (he : -1074 ≤ e) (hlow : 2 ^ 52 ≤ n)
    (hhigh : n < 2 ^ 53) :
    UnpackedFloat.shiftToTargetExponent .binary64 n e .exact = (⟨n, false, false⟩, e) := by
  have hlog : n.log2 = 52 := (Nat.log2_eq_iff (by omega)).mpr ⟨hlow, hhigh⟩
  rw [shiftToTargetExponent_eq (k := 0) (by omega) hlog, Nat.cast_zero, add_zero]
  rfl

private theorem shift_carried {e : Int} (he : -1074 ≤ e) :
    UnpackedFloat.shiftToTargetExponent .binary64 (2 ^ 53) e .exact =
      (⟨2 ^ 52, false, false⟩, e + 1) := by
  rw [shiftToTargetExponent_eq (k := 1) (by rw [Nat.log2_two_pow]; omega) Nat.log2_two_pow]
  rfl

/-- A positive whole number is rounded to a mantissa of 53 bits. -/
theorem round_eq (s : Sign) (hn : 0 < n) :
    UnpackedFloat.round .binary64 s n 0 =
      if roundedMantissa n < 2 ^ 53 then
        .finite s (roundedMantissa n) (n.log2 - 52)
          ((Nat.two_pow_pos 52).trans_le (roundedMantissa_bounds hn).1)
      else .finite s (2 ^ 52) (n.log2 - 51) (by decide) := by
  have htarget : Format.binary64.targetExponent (totalExponent n 0) = n.log2 - 52 := by
    rw [targetExponent_eq (by omega), add_zero]
  have hwiden : UnpackedFloat.decreaseExponent n 0 (n.log2 - 52) =
      ((widened n).mantissa, -((52 - n.log2 : Nat) : Int)) := by
    have hamount : ((0 : Int) - (n.log2 - 52)).toNat = 52 - n.log2 := by omega
    rw [UnpackedFloat.decreaseExponent, hamount, zero_sub]
    rfl
  have hshift := shiftToTargetExponent_eq (n := (widened n).mantissa)
    (e := -((52 - n.log2 : Nat) : Int)) (by rw [log2_widened hn]; omega) (log2_widened hn)
  have hexponent : -((52 - n.log2 : Nat) : Int) + ((n.log2 - 52 : Nat) : Int) = n.log2 - 52 := by
    omega
  have hrounded : ((⟨(widened n).mantissa, false, false⟩ : ExtendedMantissa) >>>
      (n.log2 - 52)).roundedMantissa = roundedMantissa n := rfl
  have hleast : (-1074 : Int) ≤ n.log2 - 52 := by omega
  obtain ⟨hlow, hhigh⟩ := roundedMantissa_bounds hn
  simp only [UnpackedFloat.round, htarget, hwiden, UnpackedFloat.roundWithAccuracy, hshift,
    hexponent, hrounded]
  by_cases hr : roundedMantissa n < 2 ^ 53
  · simp only [shift_normal hleast hlow hr]
    rw [dif_neg (by omega), if_pos hr]
  · have hcarry : roundedMantissa n = 2 ^ 53 := by omega
    simp only [hcarry, shift_carried hleast]
    rw [dif_neg (by decide), if_neg (by decide)]
    congr 1
    omega

end

/-! ### Doubles of 53 bits as bits -/

private theorem toNat_hidden (f : BitVec 52) : (1#1 ++ f).toNat = 2 ^ 52 + f.toNat := by
  rw [BitVec.toNat_append, ← Nat.shiftLeft_add_eq_or_of_lt f.isLt]
  rfl

/-- A double with a mantissa of 53 bits is read back from its bits. -/
theorem unpack_pack (s : Sign) {m : Nat} {e : Int} (hm : 0 < m) (hlow : 2 ^ 52 ≤ m)
    (hhigh : m < 2 ^ 53) (hleast : -1074 ≤ e) (hmost : e ≤ 971) :
    (Float.Model.pack (.finite s m e hm)).unpack = .finite s m e hm := by
  have hlog : m.log2 + 1 = Format.binary64.mantissaBits := by
    rw [(Nat.log2_eq_iff hm.ne').mpr ⟨hlow, hhigh⟩]
    rfl
  obtain ⟨x, hx⟩ : ∃ x : Nat, e = x - 1075 := ⟨(e + 1075).toNat, by omega⟩
  have hbiased : (e + Format.binary64.exponentBias +
      Format.binary64.mantissaBitsWithoutImplicit).toNat = x := by
    change (e + 1023 + 52).toNat = x
    omega
  have hpack : UnpackedFloat.pack .binary64 (.finite s m e hm) =
      UnpackedFloat.packComponents .binary64 s (BitVec.ofNat 11 x) (BitVec.ofNat 52 m) := by
    simp only [UnpackedFloat.pack, hbiased, hlog]
    rw [if_neg (by omega), if_pos trivial]
  have hexponent : (BitVec.ofNat 11 x).toNat = x := Nat.mod_eq_of_lt (by omega)
  have hfraction : (BitVec.ofNat 52 m).toNat = m - 2 ^ 52 := by
    rw [BitVec.toNat_ofNat]
    omega
  change UnpackedFloat.unpack .binary64 (UnpackedFloat.pack .binary64 (.finite s m e hm)) = _
  have hall : BitVec.ofNat 11 x ≠ -1#_ := by
    intro h
    have := congrArg BitVec.toNat h
    rw [hexponent] at this
    change x = 2047 at this
    omega
  have hnone : BitVec.ofNat 11 x ≠ 0#_ := by
    intro h
    have := congrArg BitVec.toNat h
    rw [hexponent] at this
    change x = 0 at this
    omega
  rw [hpack, UnpackedFloat.unpack]
  simp only [UnpackedFloat.unpackExponent_packComponents,
    UnpackedFloat.unpackMantissa_packComponents, UnpackedFloat.unpackSign_packComponents,
    Sign.ofBitVec_toBitVec]
  rw [if_neg hall, if_neg hnone]
  simp only [toNat_hidden, hfraction, hexponent]
  rw [UnpackedFloat.finite.injEq]
  refine ⟨rfl, by omega, ?_⟩
  change (x : Int) - (1023 + 52) = e
  omega

/-! ### Ranks -/

/-- The place of the double nearest to a whole number without sign. Where rounding carries out of
the mantissa, the exponent takes the carry. -/
def magnitudeRank (n : Nat) : Nat := n.log2 * 2 ^ 52 + roundedMantissa n

/-- The place of the double nearest to a whole number, with zero in the middle. -/
def rank (n : Int) : Int := n.sign * magnitudeRank n.natAbs

section

variable {m n : Nat}

theorem magnitudeRank_zero : magnitudeRank 0 = 0 := rfl

theorem magnitudeRank_pos (hn : 0 < n) : 0 < magnitudeRank n := by
  have := (roundedMantissa_bounds hn).1
  rw [magnitudeRank]
  omega

private theorem log2_le_log2 (hm : 0 < m) (h : m ≤ n) : m.log2 ≤ n.log2 :=
  (Nat.le_log2 (by omega)).mpr ((Nat.log2_self_le hm.ne').trans h)

theorem magnitudeRank_le (h : m ≤ n) : magnitudeRank m ≤ magnitudeRank n := by
  rcases m.eq_zero_or_pos with rfl | hm
  · exact Nat.zero_le _
  · rcases (log2_le_log2 hm h).eq_or_lt with hlog | hlog
    · rw [magnitudeRank, magnitudeRank, hlog]
      exact Nat.add_le_add_left (roundedMantissa_le h hlog) _
    · have hhigh := (roundedMantissa_bounds hm).2
      have hlow := (roundedMantissa_bounds (hm.trans_le h)).1
      rw [magnitudeRank, magnitudeRank]
      omega

/-- Up to 53 bits every number has a double of its own. -/
theorem magnitudeRank_lt (h : m < n) (hn : n ≤ 2 ^ 53) : magnitudeRank m < magnitudeRank n := by
  rcases m.eq_zero_or_pos with rfl | hm
  · exact magnitudeRank_pos h
  · have hlogm : m.log2 ≤ 52 := by
      have := (Nat.log2_lt hm.ne').mpr (h.trans_le hn)
      omega
    rcases (log2_le_log2 hm h.le).eq_or_lt with hlog | hlog
    · rw [magnitudeRank, magnitudeRank, roundedMantissa_eq hlogm,
        roundedMantissa_eq (hlog ▸ hlogm), hlog]
      have := Nat.mul_lt_mul_of_pos_right h (Nat.two_pow_pos (52 - n.log2))
      omega
    · have hexact : roundedMantissa m < 2 ^ 53 := by
        rw [roundedMantissa_eq hlogm]
        calc m * 2 ^ (52 - m.log2) < 2 ^ (m.log2 + 1) * 2 ^ (52 - m.log2) :=
              Nat.mul_lt_mul_of_pos_right Nat.lt_log2_self (Nat.two_pow_pos _)
          _ = 2 ^ 53 := by
              rw [← pow_add]
              congr 1
              omega
      have hlow := (roundedMantissa_bounds (hm.trans h)).1
      rw [magnitudeRank, magnitudeRank]
      omega

end

section

variable {m n : Int}

theorem rank_natCast (n : Nat) : rank n = magnitudeRank n := by
  rcases n.eq_zero_or_pos with rfl | hn
  · rfl
  · rw [rank, Int.sign_eq_one_of_pos (by omega), one_mul, Int.natAbs_natCast]

theorem rank_neg (n : Int) : rank (-n) = -rank n := by
  rw [rank, rank, Int.sign_neg, Int.natAbs_neg, neg_mul]

/-- Ranks are in the order of the numbers. -/
theorem rank_le_rank (h : m ≤ n) : rank m ≤ rank n := by
  obtain ⟨k, rfl | rfl⟩ := m.eq_nat_or_neg <;> obtain ⟨l, rfl | rfl⟩ := n.eq_nat_or_neg
  · have := magnitudeRank_le (m := k) (n := l) (by omega)
    rw [rank_natCast, rank_natCast]
    omega
  · obtain rfl : k = 0 := by omega
    obtain rfl : l = 0 := by omega
    rfl
  · rw [rank_neg, rank_natCast, rank_natCast]
    omega
  · have := magnitudeRank_le (m := l) (n := k) (by omega)
    rw [rank_neg, rank_neg, rank_natCast, rank_natCast]
    omega

/-- Up to 53 bits no two numbers have one rank. -/
theorem rank_lt_rank (h : m < n) (hm : m.natAbs ≤ 2 ^ 53) (hn : n.natAbs ≤ 2 ^ 53) :
    rank m < rank n := by
  obtain ⟨k, rfl | rfl⟩ := m.eq_nat_or_neg <;> obtain ⟨l, rfl | rfl⟩ := n.eq_nat_or_neg
  · have := magnitudeRank_lt (m := k) (n := l) (by omega) (by omega)
    rw [rank_natCast, rank_natCast]
    omega
  · omega
  · rw [rank_neg, rank_natCast, rank_natCast]
    rcases k.eq_zero_or_pos with rfl | hk
    · have := magnitudeRank_pos (n := l) (by omega)
      rw [magnitudeRank_zero]
      omega
    · have := magnitudeRank_pos hk
      omega
  · have := magnitudeRank_lt (m := l) (n := k) (by omega) (by omega)
    rw [rank_neg, rank_neg, rank_natCast, rank_natCast]
    omega

end

/-! ### Comparing doubles of whole numbers -/

/-- A double of 53 bits, or zero, is at a place. -/
private inductive Ranked : UnpackedFloat → Int → Prop
  | zero (s : Sign) : Ranked (.zero s) 0
  | finite (s : Sign) {m : Nat} {e : Int} (hm : 0 < m) (hlow : 2 ^ 52 ≤ m) (hhigh : m < 2 ^ 53)
      (hleast : -52 ≤ e) (hmost : e ≤ 971) :
      Ranked (.finite s m e hm) (s.apply ((e + 52) * 2 ^ 52 + m))

private theorem compare_places {m n : Nat} {e f : Int} (hm : 2 ^ 52 ≤ m ∧ m < 2 ^ 53)
    (hn : 2 ^ 52 ≤ n ∧ n < 2 ^ 53) :
    (compare e f).then (compare m n) =
      compare ((e + 52) * 2 ^ 52 + (m : Int)) ((f + 52) * 2 ^ 52 + (n : Int)) := by
  rcases lt_trichotomy e f with h | rfl | h
  · have hplace : (e + 52) * 2 ^ 52 + (m : Int) < (f + 52) * 2 ^ 52 + (n : Int) := by omega
    rw [compare_lt_iff_lt.mpr h, compare_lt_iff_lt.mpr hplace]
    rfl
  · rw [compare_eq_iff_eq.mpr rfl]
    change compare m n = _
    rcases lt_trichotomy m n with h | rfl | h
    · rw [compare_lt_iff_lt.mpr h, compare_lt_iff_lt.mpr (by omega)]
    · rw [compare_eq_iff_eq.mpr rfl, compare_eq_iff_eq.mpr rfl]
    · rw [compare_gt_iff_gt.mpr h, compare_gt_iff_gt.mpr (by omega)]
  · have hplace : (f + 52) * 2 ^ 52 + (n : Int) < (e + 52) * 2 ^ 52 + (m : Int) := by omega
    rw [compare_gt_iff_gt.mpr h, compare_gt_iff_gt.mpr hplace]
    rfl

private theorem compare_neg_neg (k l : Int) : compare (-k) (-l) = (compare k l).swap := by
  rcases lt_trichotomy k l with h | rfl | h
  · rw [compare_lt_iff_lt.mpr h, compare_gt_iff_gt.mpr (neg_lt_neg h)]
    rfl
  · rw [compare_eq_iff_eq.mpr rfl, compare_eq_iff_eq.mpr rfl]
    rfl
  · rw [compare_gt_iff_gt.mpr h, compare_lt_iff_lt.mpr (neg_lt_neg h)]
    rfl

namespace Ranked

private theorem compare_eq {u v : UnpackedFloat} {k l : Int} (hu : Ranked u k) (hv : Ranked v l) :
    u.compare v = some (compare k l) := by
  cases hu with
  | zero s =>
    cases hv with
    | zero s' => rfl
    | finite s' hn hlow hhigh hleast hmost =>
      cases s' with
      | negative =>
        rw [Sign.apply, compare_gt_iff_gt.mpr (by omega)]
        rfl
      | positive =>
        rw [Sign.apply, compare_lt_iff_lt.mpr (by omega)]
        rfl
  | finite s hm hlow hhigh hleast hmost =>
    cases hv with
    | zero s' =>
      cases s with
      | negative =>
        rw [Sign.apply, compare_lt_iff_lt.mpr (by omega)]
        rfl
      | positive =>
        rw [Sign.apply, compare_gt_iff_gt.mpr (by omega)]
        rfl
    | finite s' hn hlow' hhigh' hleast' hmost' =>
      rename_i m e n f
      have hplaces := compare_places (e := e) (f := f) ⟨hlow, hhigh⟩ ⟨hlow', hhigh'⟩
      cases s <;> cases s' <;> simp only [Sign.apply]
      · rw [compare_neg_neg, ← hplaces]
        rfl
      · rw [compare_lt_iff_lt.mpr (by omega)]
        rfl
      · rw [compare_gt_iff_gt.mpr (by omega)]
        rfl
      · rw [← hplaces]
        rfl

private theorem unpack_pack {u : UnpackedFloat} {k : Int} (hu : Ranked u k) :
    (Float.Model.pack u).unpack = u := by
  cases hu with
  | zero s => cases s <;> rfl
  | finite s hm hlow hhigh hleast hmost =>
    exact Decimal.unpack_pack s hm hlow hhigh (by omega) hmost

private theorem round (s : Sign) {n : Nat} (hpos : 0 < n) (hn : n ≤ 2 ^ 64) :
    Ranked (UnpackedFloat.round .binary64 s n 0) (s.apply (magnitudeRank n)) := by
  obtain ⟨hlow, hhigh⟩ := roundedMantissa_bounds hpos
  have hlog : n.log2 < 65 := (Nat.log2_lt hpos.ne').mpr (by omega)
  rw [round_eq s hpos]
  split
  · next hr =>
    have hplace : (magnitudeRank n : Int) = (n.log2 - 52 + 52) * 2 ^ 52 + roundedMantissa n := by
      rw [magnitudeRank]
      omega
    rw [hplace]
    exact .finite s _ hlow hr (by omega) (by omega)
  · next hr =>
    have hplace : (magnitudeRank n : Int) = (n.log2 - 51 + 52) * 2 ^ 52 + (2 ^ 52 : Nat) := by
      rw [magnitudeRank]
      omega
    rw [hplace]
    exact .finite s _ (Nat.le_refl _) (by decide) (by omega) (by omega)

private theorem ofInt {n : Int} (hn : n.natAbs ≤ 2 ^ 64) :
    Ranked (UnpackedFloat.ofInt .binary64 n) (rank n) := by
  obtain ⟨k, rfl | rfl⟩ := n.eq_nat_or_neg <;> rcases k.eq_zero_or_pos with rfl | hk
  · exact .zero .positive
  · rw [rank_natCast, UnpackedFloat.ofInt, UnpackedFloat.normalize,
      compare_gt_iff_gt.mpr (by omega)]
    exact round .positive hk (by omega)
  · exact .zero .positive
  · rw [rank_neg, rank_natCast, UnpackedFloat.ofInt, UnpackedFloat.normalize,
      compare_lt_iff_lt.mpr (by omega)]
    have hround := round .negative hk (by omega)
    have habs : (- -(k : Int)).toNat = k := by omega
    simp only [habs]
    exact hround

end Ranked

/-- Doubles of whole numbers compare as their ranks. -/
theorem compare_ofWhole {m n : Int} (hm : m.natAbs ≤ 2 ^ 64) (hn : n.natAbs ≤ 2 ^ 64) :
    (ofWhole m).toModel.unpack.compare (ofWhole n).toModel.unpack =
      some (compare (rank m) (rank n)) := by
  change (Float.Model.pack (UnpackedFloat.ofInt .binary64 m)).unpack.compare
    (Float.Model.pack (UnpackedFloat.ofInt .binary64 n)).unpack = _
  rw [(Ranked.ofInt hm).unpack_pack, (Ranked.ofInt hn).unpack_pack]
  exact (Ranked.ofInt hm).compare_eq (.ofInt hn)

section

variable {m n : Int}

theorem ofWhole_beq_iff (hm : m.natAbs ≤ 2 ^ 64) (hn : n.natAbs ≤ 2 ^ 64) :
    (ofWhole m == ofWhole n) = true ↔ rank m = rank n := by
  change ((ofWhole m).toModel.unpack.compare (ofWhole n).toModel.unpack == some .eq) = true ↔ _
  rw [compare_ofWhole hm hn, beq_iff_eq, Option.some.injEq, compare_eq_iff_eq]

theorem ofWhole_lt_iff (hm : m.natAbs ≤ 2 ^ 64) (hn : n.natAbs ≤ 2 ^ 64) :
    ofWhole m < ofWhole n ↔ rank m < rank n := by
  change decide (((ofWhole m).toModel.unpack.compare (ofWhole n).toModel.unpack ==
    some .lt) = true) = true ↔ _
  rw [compare_ofWhole hm hn, decide_eq_true_iff, beq_iff_eq, Option.some.injEq,
    compare_lt_iff_lt]

/-- Doubles are in the order of their numbers unless two numbers share one. -/
theorem compare_rank_eq_iff (hm : m.natAbs ≤ 2 ^ 64) (hn : n.natAbs ≤ 2 ^ 64) :
    compare (rank m) (rank n) = compare m n ↔ m = n ∨ ¬ofWhole m == ofWhole n := by
  rw [ofWhole_beq_iff hm hn]
  rcases lt_trichotomy m n with h | rfl | h
  · rw [compare_lt_iff_lt.mpr h, compare_lt_iff_lt, (rank_le_rank h.le).lt_iff_ne]
    exact (or_iff_right h.ne).symm
  · rw [compare_eq_iff_eq.mpr rfl, compare_eq_iff_eq.mpr rfl]
    exact iff_of_true rfl (.inl rfl)
  · rw [compare_gt_iff_gt.mpr h, compare_gt_iff_gt, (rank_le_rank h.le).lt_iff_ne, ne_comm]
    exact (or_iff_right h.ne').symm

/-- Numbers of up to 53 bits are told apart by their doubles. -/
theorem ofWhole_beq_iff_eq (hm : m.natAbs ≤ 2 ^ 53) (hn : n.natAbs ≤ 2 ^ 53) :
    (ofWhole m == ofWhole n) = true ↔ m = n := by
  rw [ofWhole_beq_iff (by omega) (by omega)]
  constructor
  · intro h
    rcases lt_trichotomy m n with hlt | heq | hlt
    · exact absurd h (rank_lt_rank hlt hm hn).ne
    · exact heq
    · exact absurd h (rank_lt_rank hlt hn hm).ne'
  · exact congrArg rank

end

end GatewayMapping.Decimal
