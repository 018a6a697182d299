import GatewayMapping.Decimal.Double

/-!
# The shortest digits of a double

Every double is the nearest one to all the reals in an interval around it. Of the decimal numbers
in that interval this module takes one with the fewest digits, and of those the one nearest to the
double itself.

All comparisons are between whole numbers. For a number of digits `k` the decimal numbers with `k`
digits near the double form a grid; if one of them lies in the interval, so does one of the two
neighbours of the double on the grid, so it is enough to look at these.
-/

namespace GatewayMapping.Decimal

/-- The decimal number `d.ddd * 10 ^ exponent`, without zeros at the end. -/
structure Digits where
  digits : List Nat
  exponent : Int
  deriving Repr, DecidableEq

/-- Which of two neighbours at the same distance is taken. -/
inductive Tie where
  | up
  | even
  deriving Repr, DecidableEq

/-- The decimal digits of a whole number, the highest first. -/
def digitsOf (n : Nat) : List Nat := (Nat.toDigits 10 n).map fun c => c.toNat - 48

/-- Digits without the zeros at their end. -/
def dropFinalZeros (ds : List Nat) : List Nat := (ds.reverse.dropWhile (· == 0)).reverse

/-- The exponent of the highest digit of the fraction `num / den`. -/
def leadingExponent (num den : Nat) : Int :=
  let a := (Nat.toDigits 10 num).length
  let b := (Nat.toDigits 10 den).length
  let reached :=
    if b ≤ a then den * Nat.pow 10 (a - b) ≤ num else den ≤ num * Nat.pow 10 (b - a)
  if reached then (a : Int) - b else (a : Int) - b - 1

/-- An interval of reals around a double, in units of a quarter of its last place: the double
itself, the two ends, and whether these belong to the interval. -/
structure Surrounding where
  low : Nat
  value : Nat
  high : Nat
  closed : Bool
  deriving Repr, DecidableEq

/-- The reals whose nearest double is `b`. Below a power of two the doubles lie twice as close. -/
def Binary.surrounding (b : Binary) : Surrounding :=
  let four := 4 * b.mantissa
  let below := if b.mantissa = hiddenBit && b.exponent ≠ leastExponent then 1 else 2
  ⟨four - below, four, four + 2, b.mantissa % 2 = 0⟩

/-- Looks for a decimal number in the interval on the grid with steps of `10 ^ place`, where a unit
of the interval is `2 ^ unit`. -/
def Surrounding.pick? (s : Surrounding) (unit place : Int) (tie : Tie) : Option Nat :=
  let u := Nat.pow 2 unit.toNat * Nat.pow 10 (-place).toNat
  let w := Nat.pow 2 (-unit).toNat * Nat.pow 10 place.toNat
  let lower := s.value * u / w
  let inside (d : Nat) : Bool :=
    if s.closed then s.low * u ≤ d * w && d * w ≤ s.high * u
    else s.low * u < d * w && d * w < s.high * u
  let down := s.value * u - lower * w
  let up := (lower + 1) * w - s.value * u
  match inside lower, inside (lower + 1) with
  | true, true =>
    if down < up then some lower
    else if up < down then some (lower + 1)
    else match tie with
      | .up => some (lower + 1)
      | .even => some (if lower % 2 = 0 then lower else lower + 1)
  | true, false => some lower
  | false, true => some (lower + 1)
  | false, false => none

/-- Tries `count` grids, from the one with steps of `10 ^ place` on to finer ones. -/
def Surrounding.search (s : Surrounding) (unit : Int) (tie : Tie) : Nat → Int → Nat × Int
  | 0, place => (s.value, place)
  | count + 1, place =>
    match s.pick? unit place tie with
    | some d => (d, place)
    | none => s.search unit tie count (place - 1)

/-- The shortest digits of a magnitude other than zero. -/
def shortest (tie : Tie) (b : Binary) : Digits :=
  let s := b.surrounding
  let unit := b.exponent - 2
  let num := s.value * Nat.pow 2 unit.toNat
  let den := Nat.pow 2 (-unit).toNat
  let (d, place) := s.search unit tie 18 (leadingExponent num den)
  let ds := digitsOf d
  ⟨dropFinalZeros ds, place + (ds.length - 1 : Int)⟩

end GatewayMapping.Decimal
