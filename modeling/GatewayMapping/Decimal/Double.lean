/-!
# Doubles as binary fractions

A finite double is a whole number times a power of two. This module takes a double apart into
these two, puts them together again, computes the remainder of a division exactly, and reads whole
numbers as doubles.
-/

namespace GatewayMapping.Decimal

/-- The number `mantissa * 2 ^ exponent`. -/
structure Binary where
  mantissa : Nat
  exponent : Int
  deriving Repr, DecidableEq

namespace Binary

/-- The least exponent of a double. -/
def leastExponent : Int := -1074

/-- The value of the highest bit of a mantissa, which the bits of a double leave out. -/
def hiddenBit : Nat := Nat.pow 2 52

/-- The value of the sign bit among the bits of a double. -/
def negativeBit : Nat := Nat.pow 2 63

/-- The magnitude of a finite double. -/
def ofFloat (x : Float) : Binary :=
  let bits := x.toBits.toNat
  let exponent : Nat := bits / hiddenBit % 2048
  let fraction : Nat := bits % hiddenBit
  if exponent = 0 then ⟨fraction, leastExponent⟩ else ⟨fraction + hiddenBit, exponent - 1075⟩

/-- The double of a sign and a magnitude of at most 53 bits whose exponent is not below the least
one. -/
def toFloat (negative : Bool) (b : Binary) : Float :=
  let sign := if negative then negativeBit else 0
  if b.mantissa = 0 then Float.ofBits (UInt64.ofNat sign)
  else
    let shift := min (52 - b.mantissa.log2) (b.exponent - leastExponent).toNat
    let mantissa := b.mantissa * Nat.pow 2 shift
    let exponent := b.exponent - shift
    if mantissa < hiddenBit then Float.ofBits (UInt64.ofNat (sign + mantissa))
    else
      Float.ofBits
        (UInt64.ofNat (sign + (exponent + 1075).toNat * hiddenBit + (mantissa - hiddenBit)))

end Binary

/-- Whether the sign bit of a double is set. -/
def signBit (x : Float) : Bool := Binary.negativeBit ≤ x.toBits.toNat

/-- The remainder of a division of doubles rounded toward zero. It is exact and has the sign of
the dividend. -/
def remainder (x y : Float) : Float :=
  if x.isNaN || y.isNaN || x.isInf || y == 0 then 0.0 / 0.0
  else if y.isInf then x
  else
    let a := Binary.ofFloat x
    let b := Binary.ofFloat y
    let exponent := min a.exponent b.exponent
    let m := a.mantissa * Nat.pow 2 (a.exponent - exponent).toNat
    let n := b.mantissa * Nat.pow 2 (b.exponent - exponent).toNat
    Binary.toFloat (signBit x) ⟨m % n, exponent⟩

/-- The double nearest to a whole number. Halfway between two doubles it is the one with the even
mantissa. -/
def ofWhole (n : Int) : Float := Float.ofModel (Float.Model.ofInt n)

/-- The whole part of a double as a 64-bit integer: the ends of the range stand for what lies
beyond them, and zero for what is no number. -/
def truncate (x : Float) : Int64 := x.toInt64

end GatewayMapping.Decimal
