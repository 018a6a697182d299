import GatewayMapping.Decimal.Double
import GatewayMapping.OrderedMap

/-!
# JSON documents

Documents with objects in order. Numbers are whole numbers or doubles, and the two never mix: a
document that reads `1` and one that reads `1.0` differ.

`Json.equal` is the equality of documents, which does not look at the order of object members.
-/

namespace GatewayMapping

/-- A JSON document. -/
inductive Json where
  | null
  | bool (b : Bool)
  | int (n : Int)
  | float (x : Float)
  | string (s : String)
  | array (items : List Json)
  | object (fields : List (String × Json))
  deriving Repr, BEq, Inhabited

namespace Json

/-- The members of an object. -/
def fields? : Json → Option (Fields Json)
  | .object fields => some fields
  | _ => none

/-- The items of an array. -/
def items? : Json → Option (List Json)
  | .array items => some items
  | _ => none

/-- The text of a string. -/
def string? : Json → Option String
  | .string s => some s
  | _ => none

/-- The member of an object under a key. -/
def member? (j : Json) (key : String) : Option Json := j.fields?.bind fun fields => fields.get? key

/-- The double nearest to a whole number. -/
def floatOfInt (n : Int) : Float := Decimal.ofWhole n

/-- The value of a number as a double. -/
def number? : Json → Option Float
  | .int n => some (floatOfInt n)
  | .float x => some x
  | _ => none

mutual
/-- Equality of documents. Objects are equal when they have the same number of members and every
member of the first equals the member of that name in the second. -/
def equal : Json → Json → Bool
  | .null, .null => true
  | .bool a, .bool b => a == b
  | .int m, .int n => m == n
  | .float x, .float y => x == y
  | .string s, .string t => s == t
  | .array xs, .array ys => equalItems xs ys
  | .object fs, .object gs => fs.length == gs.length && equalMembers fs gs
  | _, _ => false

/-- Whether two lists of documents are equal item by item. -/
def equalItems : List Json → List Json → Bool
  | [], [] => true
  | x :: xs, y :: ys => equal x y && equalItems xs ys
  | _, _ => false

/-- Whether every member of the first object equals the member of that name in the second. -/
def equalMembers : List (String × Json) → Fields Json → Bool
  | [], _ => true
  | (key, x) :: fs, gs =>
    (match gs.get? key with
      | some y => equal x y
      | none => false) && equalMembers fs gs
end

end Json
end GatewayMapping
