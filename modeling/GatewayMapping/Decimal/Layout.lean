import GatewayMapping.Decimal.Shortest

/-!
# Writing doubles

The text of a double is made of its shortest digits. Where the point goes, when an exponent is
written and how, and what stands for values that are no numbers, is decided by a `Layout`.
-/

namespace GatewayMapping.Decimal

/-- The decisions of a number format. -/
structure Layout where
  /-- The exponents of numbers that are written without an exponent. -/
  positional : Int → Bool
  /-- What follows a whole number. -/
  wholeEnd : String
  /-- What follows a single digit before an exponent. -/
  digitEnd : String
  /-- The mark of the exponent. -/
  mark : String
  /-- The sign of an exponent that is not negative. -/
  plus : String
  /-- The text of what is no number. -/
  notANumber : String
  /-- The text of infinity. -/
  infinity : String
  /-- The digits of zero with what follows it. -/
  zero : String
  tie : Tie

/-- The text of a list of digits. -/
def digitText (ds : List Nat) : String := String.ofList (ds.map fun d => Char.ofNat (48 + d))

/-- A number of zeros. -/
def zeros (n : Nat) : String := String.ofList (List.replicate n '0')

namespace Layout

/-- Digits written with the point at its place. -/
def positionalText (layout : Layout) (d : Digits) : String :=
  let count : Int := d.digits.length
  if d.exponent < 0 then "0." ++ zeros (-d.exponent - 1).toNat ++ digitText d.digits
  else if count ≤ d.exponent + 1 then
    digitText d.digits ++ zeros (d.exponent + 1 - count).toNat ++ layout.wholeEnd
  else
    let whole := (d.exponent + 1).toNat
    digitText (d.digits.take whole) ++ "." ++ digitText (d.digits.drop whole)

/-- Digits written with an exponent. -/
def exponentText (layout : Layout) (d : Digits) : String :=
  let mantissa :=
    match d.digits with
    | first :: second :: rest => digitText [first] ++ "." ++ digitText (second :: rest)
    | ds => digitText ds ++ layout.digitEnd
  let sign := if d.exponent < 0 then "-" else layout.plus
  mantissa ++ layout.mark ++ sign ++ toString d.exponent.natAbs

/-- The text of a double. -/
def text (layout : Layout) (x : Float) : String :=
  if x.isNaN then layout.notANumber
  else
    let magnitude :=
      if x.isInf then layout.infinity
      else if x == 0 then layout.zero
      else
        let d := shortest layout.tie (Binary.ofFloat x)
        if layout.positional d.exponent then layout.positionalText d else layout.exponentText d
    if signBit x then "-" ++ magnitude else magnitude

end Layout
end GatewayMapping.Decimal
