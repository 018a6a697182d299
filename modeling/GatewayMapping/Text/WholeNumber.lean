/-!
# Whole numbers in texts
-/

namespace GatewayMapping.Text

/-- The number of decimal digits, of which there has to be one. -/
def digitsNumber? (cs : List Char) : Option Nat :=
  if cs.isEmpty || !cs.all Char.isDigit then none
  else some (cs.foldl (fun n d => n * 10 + (d.toNat - 48)) 0)

/-- The number of decimal digits after a sign, which may be missing. -/
def wholeNumber? : List Char → Option Int
  | '-' :: cs => (digitsNumber? cs).map fun n => -(n : Int)
  | '+' :: cs => (digitsNumber? cs).map Int.ofNat
  | cs => (digitsNumber? cs).map Int.ofNat

end GatewayMapping.Text
