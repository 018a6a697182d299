import GatewayMapping.Json.Basic
import GatewayMapping.Value.Basic

/-!
# Values of JSON documents

A document becomes a value with new lists and maps. A whole number beyond the range of 64-bit
integers keeps its digits as a string.
-/

namespace GatewayMapping.Heap

mutual
/-- The value of a document, with its lists and maps put on the heap. -/
def ofJson (h : Heap) : Json → Value × Heap
  | .null => (.null, h)
  | .bool b => (.bool b, h)
  | .int n =>
    match int64? n with
    | some i => (.int i, h)
    | none => (.string (toString n), h)
  | .float x => (.float x, h)
  | .string s => (.string s, h)
  | .array items =>
    let (values, h) := ofJsonItems h items
    h.newList values
  | .object fields =>
    let (members, h) := ofJsonMembers h fields
    h.newMap (.ofList members)

/-- The values of the items of an array. -/
def ofJsonItems (h : Heap) : List Json → List Value × Heap
  | [] => ([], h)
  | x :: xs =>
    let (v, h) := ofJson h x
    let (vs, h) := ofJsonItems h xs
    (v :: vs, h)

/-- The values of the members of an object. -/
def ofJsonMembers (h : Heap) : List (String × Json) → Fields Value × Heap
  | [] => ([], h)
  | (key, x) :: fs =>
    let (v, h) := ofJson h x
    let (ms, h) := ofJsonMembers h fs
    ((key, v) :: ms, h)
end

end GatewayMapping.Heap
