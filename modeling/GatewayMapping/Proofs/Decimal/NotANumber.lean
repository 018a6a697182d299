import Mathlib
import GatewayMapping.Decimal.Double

/-!
# Doubles that are numbers

Packing a double into its bits keeps what it is: no infinity, no zero and no finite number becomes
NaN. NaN comes of a product or quotient only if an operand is NaN, a zero or an infinity, so the
doubles that decimal digits and a power of ten are rounded to are never NaN, and none is where the
sign is changed.

## Main results

* `isNaN_ofWhole`, `isNaN_ofScientific`, `isNaN_neg`: the doubles of whole numbers, of decimal
  numbers and of numbers with another sign.
-/

namespace GatewayMapping.Decimal

open Float.Model (Format UnpackedFloat)
open Float.Model.UnpackedFloat (Accuracy Sign isNaNBits pack packComponents unpack)

variable {u v : UnpackedFloat}

/-! ### Bits -/

/-- The bits of NaN have the greatest exponent and a mantissa. -/
theorem isNaN_unpack (b : BitVec Format.binary64.numBits) :
    (unpack .binary64 b).isNaN = isNaNBits b := by
  rw [unpack, isNaNBits]
  split
  · next h =>
    split
    · next h' => simp [h, h', UnpackedFloat.isNaN]
    · next h' => simp [h, h', UnpackedFloat.isNaN]
  · next h =>
    rw [decide_eq_false fun h' => h h'.1]
    split
    · split <;> rfl
    · rfl

theorem isNaN_unpack_packComponents {s : Sign} {e : BitVec 11} {m : BitVec 52}
    (h : e = -1#11 → m = 0#52) :
    (unpack .binary64 (packComponents .binary64 s e m)).isNaN = false := by
  rw [isNaN_unpack, isNaNBits, UnpackedFloat.unpackExponent_packComponents,
    UnpackedFloat.unpackMantissa_packComponents]
  simpa using h

/-- Packing gives NaN of nothing else. -/
theorem isNaN_unpack_pack (h : u.isNaN = false) :
    (unpack .binary64 (pack .binary64 u)).isNaN = false := by
  cases u with
  | notANumber => cases h
  | infinity s => exact isNaN_unpack_packComponents fun _ => rfl
  | zero s => exact isNaN_unpack_packComponents fun _ => rfl
  | finite s m e hm =>
    rw [pack]
    dsimp only
    split
    · exact isNaN_unpack_packComponents fun _ => rfl
    · next hexponent =>
      split
      · refine isNaN_unpack_packComponents fun h => absurd (congrArg BitVec.toNat h) ?_
        rw [BitVec.toNat_ofNat, Nat.mod_eq_of_lt (by omega)]
        change _ ≠ 2047
        omega
      · exact isNaN_unpack_packComponents nofun

/-! ### Operations -/

theorem isNaN_roundWithAccuracy (spec : Format) (s : Sign) (m : Nat) (e : Int) (a : Accuracy) :
    (UnpackedFloat.roundWithAccuracy spec s m e a).isNaN = false := by
  rw [UnpackedFloat.roundWithAccuracy]
  split
  dsimp only
  split
  · rfl
  · rfl

/-- Whether a double is neither zero nor infinite. -/
def isRegular : UnpackedFloat → Bool
  | .finite .. => true
  | _ => false

theorem isNaN_mul (spec : Format) (hu : u.isNaN = false) (hv : isRegular v = true) :
    (UnpackedFloat.mul spec u v).isNaN = false := by
  cases v with
  | finite s m e hm =>
    cases u with
    | notANumber => cases hu
    | infinity s => rfl
    | zero s => rfl
    | finite s m e hm => exact isNaN_roundWithAccuracy ..
  | _ => cases hv

theorem isNaN_div (spec : Format) (hu : u.isNaN = false) (hv : isRegular v = true) :
    (UnpackedFloat.div spec u v).isNaN = false := by
  cases v with
  | finite s m e hm =>
    cases u with
    | notANumber => cases hu
    | infinity s => rfl
    | zero s => rfl
    | finite s m e hm => exact isNaN_roundWithAccuracy ..
  | _ => cases hv

theorem isNaN_normalize (spec : Format) (m e : Int) (s : Sign) :
    (UnpackedFloat.normalize spec m e s).isNaN = false := by
  rw [UnpackedFloat.normalize]
  split
  · exact isNaN_roundWithAccuracy ..
  · rfl
  · exact isNaN_roundWithAccuracy ..

theorem isNaN_unpackedOfScientific (spec : Format) (m : Nat) (e : Int) :
    (UnpackedFloat.ofScientific spec m e).isNaN = false := by
  rw [UnpackedFloat.ofScientific]
  split
  · rfl
  split
  · rfl
  split
  · rfl
  split
  · exact isNaN_mul spec rfl rfl
  · exact isNaN_div spec rfl rfl

/-! ### Doubles of numbers -/

theorem isNaN_ofWhole (n : Int) : (ofWhole n).isNaN = false :=
  isNaN_unpack_pack (isNaN_normalize ..)

theorem isNaN_neg {x : Float} (h : x.isNaN = false) : (-x).isNaN = false := by
  have hx : x.toModel.unpack.isNaN = false := h
  refine isNaN_unpack_pack ?_
  cases hu : x.toModel.unpack <;> rw [hu] at hx
  case notANumber => cases hx
  all_goals rfl

/-- The powers of ten that doubles hold exactly are finite and not zero. -/
theorem isRegular_powerOfTen :
    ∀ x ∈ Float.exactlyRepresentablePowersOfTen, isRegular x.toModel.unpack = true := by
  decide +kernel

/-- No decimal number is rounded to NaN. -/
theorem isNaN_ofScientific (m : Nat) (s : Bool) (e : Nat) :
    (Float.ofScientific m s e).isNaN = false := by
  rw [Float.ofScientific]
  split
  · next h =>
    have hdigits : m.toUInt64.toFloat.toModel.unpack.isNaN = false :=
      isNaN_unpack_pack (isNaN_normalize ..)
    have he : e < Float.exactlyRepresentablePowersOfTen.size := Nat.lt_succ_of_le h.2
    have hpower := isRegular_powerOfTen _ (Array.getElem_mem he)
    cases s with
    | true => exact isNaN_unpack_pack (isNaN_div _ hdigits hpower)
    | false => exact isNaN_unpack_pack (isNaN_mul _ hdigits hpower)
  · exact isNaN_unpack_pack (isNaN_unpackedOfScientific ..)

end GatewayMapping.Decimal
