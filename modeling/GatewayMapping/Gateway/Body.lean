import GatewayMapping.JsonPath.Select
import GatewayMapping.Value.OfJson

/-!
# Looking into a message body

A body is looked into by JSON paths and by dotted paths. A dotted path has one name between two
dots, or a name with one index in brackets, and leads to one place at most. What is not found, and
everything in a body that is no JSON document, is null to templates.
-/

namespace GatewayMapping.Gateway

/-- A body with the document that it holds, if it holds one. -/
structure Body where
  text : String
  document : Option Json

namespace Body

/-- The body of a text. -/
def ofText (text : String) : Body := ⟨text, (Json.parse text).toOption⟩

/-- What comes of a JSON path. -/
def find (b : Body) (expression : String) : Except JsonPath.Error Json :=
  match b.document with
  | some j => JsonPath.find j expression
  | none => .error (.noDocument expression)

/-! ### Dotted paths -/

/-- A part of a dotted path: a name, or an index into an array of a name. -/
inductive Part where
  | name (name : String)
  | index (name : String) (i : Nat)
  deriving DecidableEq, Repr, Inhabited

/-- The index that a text between brackets means, which must fit into 32 bits. -/
def index? (cs : List Char) : Option Nat :=
  (Text.wholeNumber? cs).bind fun n => if 0 ≤ n ∧ n < 2147483648 then some n.toNat else none

/-- The part that a text writes. A text that ends with a bracket but holds no index is none. -/
def part? (cs : List Char) : Option Part :=
  let name := cs.takeWhile (· ≠ '[')
  if cs.getLast? = some ']' && cs.contains '[' then
    (index? ((cs.drop (name.length + 1)).dropLast)).map fun i => .index (String.ofList name) i
  else some (.name (String.ofList cs))

/-- The place that a part leads to. -/
def Part.target? : Part → Json → Option Json
  | .name key, j => j.member? key
  | .index "" i, j => j.items?.bind fun items => items[i]?
  | .index key i, j => ((j.member? key).bind Json.items?).bind fun items => items[i]?

/-- The texts between dots, without the empty ones at the end; the first text stays. -/
def pieces (cs : List Char) : List (List Char) :=
  match Text.splitAt '.' cs with
  | [] => []
  | piece :: rest => piece :: (rest.reverse.dropWhile List.isEmpty).reverse

/-- The place that the parts of a dotted path lead to. -/
def walk? : List (List Char) → Json → Option Json
  | [], j => some j
  | cs :: rest, j => ((part? cs).bind fun part => part.target? j).bind (walk? rest)

/-- A dotted path without the sign of the root and the dot after it. -/
def withoutRoot (cs : List Char) : List Char :=
  let cs := if cs.head? = some '$' then cs.tail else cs
  if cs.head? = some '.' then cs.tail else cs

/-- The place that a dotted path leads to. -/
def dotted? (b : Body) (expression : String) : Option Json :=
  let cs := expression.toList
  if cs.isEmpty then none
  else if cs = ['$'] then b.document
  else b.document.bind (walk? (pieces (withoutRoot cs)))

/-! ### Values -/

/-- The value of what a lookup has found, or null. -/
def valueOf (h : Heap) : Option Json → Value × Heap
  | some j => h.ofJson j
  | none => (.null, h)

/-- The value that a dotted path leads to. -/
def dottedValue (b : Body) (h : Heap) (expression : String) : Value × Heap :=
  valueOf h (b.dotted? expression)

/-- The value that a JSON path leads to. -/
def pathValue (b : Body) (h : Heap) (expression : String) : Value × Heap :=
  valueOf h (b.find expression).toOption

end Body
end GatewayMapping.Gateway
