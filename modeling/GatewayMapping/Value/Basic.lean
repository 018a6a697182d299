import GatewayMapping.Decimal.Double
import GatewayMapping.OrderedMap

/-!
# Values of templates

Scalars are values of their own. Lists and maps are shared: a value holds a reference to one, and
every value with the same reference sees the same contents. The contents are kept in a `Heap`.
A host object is known by its place in a table of objects that the template engine is given, and
by the name of its type.
-/

namespace GatewayMapping

/-- The least number above all 64-bit integers. -/
def int64End : Int := 9223372036854775808

/-- The 64-bit integer of a whole number, if there is one. -/
def int64? (n : Int) : Option Int64 :=
  if -int64End ≤ n ∧ n < int64End then some (Int64.ofInt n) else none

theorem int64?_toInt (n : Int64) : int64? n.toInt = some n := by
  have := n.le_toInt
  have := n.toInt_lt
  rw [int64?, if_pos (by unfold int64End; omega), Int64.ofInt_toInt]

/-- A reference to a list of the heap. -/
structure ListRef where
  index : Nat
  deriving DecidableEq, Repr, Inhabited

/-- A reference to a map of the heap. -/
structure MapRef where
  index : Nat
  deriving DecidableEq, Repr, Inhabited

/-- A reference to a host object. -/
structure ObjectRef where
  index : Nat
  typeName : String
  deriving DecidableEq, Repr, Inhabited

/-- A value that a template computes with. -/
inductive Value where
  | null
  | bool (b : Bool)
  | int (n : Int64)
  | float (x : Float)
  | string (s : String)
  | list (ref : ListRef)
  | map (ref : MapRef)
  | object (ref : ObjectRef)
  deriving DecidableEq, Repr, Inhabited

/-- A reference to a list or to a map. -/
inductive Container where
  | list (ref : ListRef)
  | map (ref : MapRef)
  deriving DecidableEq, Repr

/-- The contents of all lists and maps. -/
structure Heap where
  lists : Array (List Value) := #[]
  maps : Array (OrderedMap Value) := #[]
  deriving DecidableEq, Repr, Inhabited

namespace Value

/-- Whether a condition holds: all values do but null and `false`. -/
def isTruthy : Value → Bool
  | .null | .bool false => false
  | _ => true

/-- Whether a value is null. -/
def isNull : Value → Bool
  | .null => true
  | _ => false

/-- Whether a value is a number. -/
def isNumber : Value → Bool
  | .int _ | .float _ => true
  | _ => false

/-- The text of a string. -/
def string? : Value → Option String
  | .string s => some s
  | _ => none

/-- The value of an integer. -/
def int? : Value → Option Int64
  | .int n => some n
  | _ => none

/-- The value of a number as a double. -/
def float? : Value → Option Float
  | .int n => some (Decimal.ofWhole n.toInt)
  | .float x => some x
  | _ => none

/-- The name of the type of a value, as error texts show it. -/
def typeName : Value → String
  | .null => "null"
  | .bool _ => "Boolean"
  | .int _ => "Integer"
  | .float _ => "Double"
  | .string _ => "String"
  | .list _ => "List"
  | .map _ => "Map"
  | .object ref => ref.typeName

end Value

namespace Heap

/-- The heap without lists and maps. -/
def empty : Heap := {}

/-- The number of lists and maps. -/
def size (h : Heap) : Nat := h.lists.size + h.maps.size

/-- The items of a list. -/
def items (h : Heap) (ref : ListRef) : List Value := h.lists[ref.index]?.getD []

/-- The members of a map. -/
def members (h : Heap) (ref : MapRef) : OrderedMap Value := h.maps[ref.index]?.getD .empty

/-- Puts other items into a list. -/
def setItems (h : Heap) (ref : ListRef) (items : List Value) : Heap :=
  { h with lists := h.lists.setIfInBounds ref.index items }

/-- Puts other members into a map. -/
def setMembers (h : Heap) (ref : MapRef) (members : OrderedMap Value) : Heap :=
  { h with maps := h.maps.setIfInBounds ref.index members }

/-- Makes a new list. -/
def newList (h : Heap) (items : List Value) : Value × Heap :=
  (.list ⟨h.lists.size⟩, { h with lists := h.lists.push items })

/-- Makes a new map. -/
def newMap (h : Heap) (members : OrderedMap Value) : Value × Heap :=
  (.map ⟨h.maps.size⟩, { h with maps := h.maps.push members })

end Heap
end GatewayMapping
