import GatewayMapping.Decimal.Double
import GatewayMapping.Template.Syntax
import GatewayMapping.Text.Blank
import GatewayMapping.Text.WholeNumber
import GatewayMapping.Value.Basic

/-!
# Arithmetic and order

Integers are computed with exactly. A result beyond their range is computed once more with
doubles, and so is an operation in which one operand is a double. What is no number, and a
division by zero, give null.
-/

namespace GatewayMapping.Value

open Template (BinaryOp)

/-- The exact result of an operation on integers, if it is an integer of 64 bits. The remainder
is had from the quotient, so it has none where the quotient is out of range. -/
def wholeResult? (op : BinaryOp) (m n : Int) : Option Int64 :=
  match op with
  | .add => int64? (m + n)
  | .sub => int64? (m - n)
  | .mul => int64? (m * n)
  | .div => if n = 0 then none else int64? (m.tdiv n)
  | .mod => if n = 0 then none else (int64? (m.tdiv n)).map fun q => .ofInt (m - n * q.toInt)
  | _ => none

/-- The result of an operation on doubles. -/
def inexact (op : BinaryOp) (x y : Float) : Value :=
  match op with
  | .add => .float (x + y)
  | .sub => .float (x - y)
  | .mul => .float (x * y)
  | .div => if y == 0 then .null else .float (x / y)
  | .mod => if y == 0 then .null else .float (Decimal.remainder x y)
  | _ => .null

/-- The result of an operation on numbers read as doubles. -/
def inexactOf (op : BinaryOp) (a b : Value) : Value :=
  match a.float?, b.float? with
  | some x, some y => inexact op x y
  | _, _ => .null

/-- The result of an arithmetic operation. -/
def arithmetic (op : BinaryOp) (a b : Value) : Value :=
  match a, b with
  | .int m, .int n =>
    match wholeResult? op m.toInt n.toInt with
    | some result => .int result
    | none => inexactOf op a b
  | _, _ => inexactOf op a b

/-- The opposite of a number. -/
def negate : Value → Value
  | .int n =>
    match int64? (-n.toInt) with
    | some result => .int result
    | none => .float (-Decimal.ofWhole n.toInt)
  | .float x => .float (-x)
  | _ => .null

/-- How two doubles compare, if they do. -/
def compareFloats? (x y : Float) : Option Ordering :=
  if x < y then some .lt else if x == y then some .eq else if y < x then some .gt else none

/-- How two values compare, if they do: numbers by value, strings by code points. -/
def compare? : Value → Value → Option Ordering
  | .int m, .int n => some (compare m.toInt n.toInt)
  | .string s, .string t => some (compare s t)
  | a, b =>
    match a.float?, b.float? with
    | some x, some y => compareFloats? x y
    | _, _ => none

/-- Whether an ordering is one that an operator of comparison asks for. -/
def agrees (op : BinaryOp) (o : Ordering) : Bool :=
  match op with
  | .lt => o.isLT
  | .le => o.isLE
  | .gt => o.isGT
  | .ge => o.isGE
  | _ => false

/-- A bound of a range: an integer, or a string that holds one between blanks. -/
def rangeBound? : Value → Option Int
  | .int n => some n.toInt
  | .string s =>
    (Text.wholeNumber? (Text.trim s).toList).bind fun n => (int64? n).map fun i => i.toInt
  | _ => none

/-- The integers from one bound to another, in either direction. -/
def rangeItems (first last : Int) : List Value :=
  let up (low high : Int) : List Int := (List.range (high - low + 1).toNat).map fun (k : Nat) => low + k
  let items := if first ≤ last then up first last else (up last first).reverse
  items.map fun n => .int (.ofInt n)

end GatewayMapping.Value
