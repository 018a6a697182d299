/-!
# Ranges of code points

Tables of characters are written as ascending, disjoint ranges of code points.
-/

namespace GatewayMapping.Text

/-- Whether a code point lies in one of the ranges of an ascending table. -/
def inRanges : List (Nat × Nat) → Nat → Bool
  | [], _ => false
  | (low, high) :: rest, n => low ≤ n && (n ≤ high || inRanges rest n)

/-- Code points that are mapped in step: the first one, every `step`-th after it up to the last
one, and the image of the first. -/
structure CaseRange where
  first : Nat
  last : Nat
  step : Nat
  image : Nat
  deriving Repr, DecidableEq

/-- The image of a code point under an ascending table, if the table maps it. -/
def imageIn? : List CaseRange → Nat → Option Nat
  | [], _ => none
  | range :: rest, n =>
    if n < range.first then none
    else if n ≤ range.last && (n - range.first) % range.step = 0 then
      some (range.image + (n - range.first))
    else imageIn? rest n

/-- The code points that a table maps to `n`. -/
def preimagesIn (ranges : List CaseRange) (n : Nat) : List Nat :=
  ranges.filterMap fun range =>
    let offset := n - range.image
    if range.image ≤ n && range.first + offset ≤ range.last && offset % range.step = 0 then
      some (range.first + offset)
    else none

end GatewayMapping.Text
