import GatewayMapping.Decimal.Layout
import GatewayMapping.Json.Basic
import GatewayMapping.Text.Quoted
import GatewayMapping.Value.Basic

/-!
# Values unfolded

`Heap.tree` unfolds a value along the references it holds. A list or map that is met inside itself
is not unfolded again, so the result is a finite tree even if the heap has cycles. All texts of a
value, and its JSON form, are functions of the tree.
-/

namespace GatewayMapping

/-- A value with the contents of its lists and maps. -/
inductive Tree where
  | null
  | bool (b : Bool)
  | int (n : Int64)
  | float (x : Float)
  | string (s : String)
  | list (items : List Tree)
  | map (members : List (String × Tree))
  | object (typeName : String)
  /-- A list inside itself. -/
  | listAgain
  /-- A map inside itself. -/
  | mapAgain
  deriving Repr, BEq, Inhabited

namespace Heap

/-- Unfolds a value inside the containers `opened`. At most `budget` more containers are opened
below one another. -/
def unfold (h : Heap) : (budget : Nat) → (opened : List Container) → Value → Tree
  | _, _, .null => .null
  | _, _, .bool b => .bool b
  | _, _, .int n => .int n
  | _, _, .float x => .float x
  | _, _, .string s => .string s
  | _, _, .object ref => .object ref.typeName
  | 0, _, .list _ => .listAgain
  | 0, _, .map _ => .mapAgain
  | budget + 1, opened, .list ref =>
    if .list ref ∈ opened then .listAgain
    else .list ((h.items ref).map (h.unfold budget (.list ref :: opened)))
  | budget + 1, opened, .map ref =>
    if .map ref ∈ opened then .mapAgain
    else .map ((h.members ref).entries.mapValues (h.unfold budget (.map ref :: opened)))
termination_by structural budget => budget

/-- The tree of a value. The containers opened below one another are different ones, so the budget
is never used up. -/
def tree (h : Heap) (v : Value) : Tree := h.unfold (h.size + 2) [] v

end Heap

namespace Tree

/-- Doubles in templates: the point at its place from `10 ^ -3` up to below `10 ^ 7`, at least one
digit after it, and an exponent after `E` elsewhere. -/
def numberLayout : Decimal.Layout where
  positional e := -3 ≤ e && e < 7
  wholeEnd := ".0"
  digitEnd := ".0"
  mark := "E"
  plus := ""
  notANumber := "NaN"
  infinity := "Infinity"
  zero := "0.0"
  tie := .up

/-- Doubles in inspection texts: never an exponent, and whole numbers without a point. -/
def inspectionLayout : Decimal.Layout where
  positional _ := true
  wholeEnd := ""
  digitEnd := ""
  mark := ""
  plus := ""
  notANumber := "NaN"
  infinity := "inf"
  zero := "0"
  tie := .up

/-- What stands for a list inside itself. -/
def listAgainText : String := "(this Collection)"

/-- What stands for a map inside itself. -/
def mapAgainText : String := "(this Map)"

/-- The text of a host object of a type. -/
def objectText (typeName : String) : String := typeName ++ "@object"

mutual
/-- The text of a value in the output of a template. -/
def text : Tree → String
  | .null => "null"
  | .bool b => if b then "true" else "false"
  | .int n => toString n.toInt
  | .float x => numberLayout.text x
  | .string s => s
  | .list items => "[" ++ textItems items ++ "]"
  | .map members => "\x7b" ++ textMembers members ++ "\x7d"
  | .object typeName => objectText typeName
  | .listAgain => listAgainText
  | .mapAgain => mapAgainText

/-- The texts of items, with commas between them. -/
def textItems : List Tree → String
  | [] => ""
  | [x] => text x
  | x :: xs => text x ++ ", " ++ textItems xs

/-- The texts of members, with commas between them. -/
def textMembers : List (String × Tree) → String
  | [] => ""
  | [(key, x)] => key ++ "=" ++ text x
  | (key, x) :: ms => key ++ "=" ++ text x ++ ", " ++ textMembers ms
end

mutual
/-- The text that shows the kind and the contents of a value for inspection. -/
def inspection : Tree → String
  | .null => "Null"
  | .bool b => if b then "Bool(true)" else "Bool(false)"
  | .int n => "Int(" ++ toString n.toInt ++ ")"
  | .float x => "Float(" ++ inspectionLayout.text x ++ ")"
  | .string s => "String(" ++ Text.Quoted.encode s ++ ")"
  | .list items => "[" ++ inspectionItems items ++ "]"
  | .map members => "\x7b" ++ inspectionMembers members ++ "\x7d"
  | .object typeName => "Object(" ++ typeName ++ ")"
  | .listAgain => listAgainText
  | .mapAgain => mapAgainText

/-- The inspection texts of items, with commas between them. -/
def inspectionItems : List Tree → String
  | [] => ""
  | [x] => inspection x
  | x :: xs => inspection x ++ ", " ++ inspectionItems xs

/-- The inspection texts of members, with commas between them. -/
def inspectionMembers : List (String × Tree) → String
  | [] => ""
  | [(key, x)] => Text.Quoted.encode key ++ ": " ++ inspection x
  | (key, x) :: ms =>
    Text.Quoted.encode key ++ ": " ++ inspection x ++ ", " ++ inspectionMembers ms
end

mutual
/-- The JSON form of a value. What JSON has no form for becomes null, if it is a number, and its
text, if it is a host object or a container inside itself. -/
def toJson : Tree → Json
  | .null => .null
  | .bool b => .bool b
  | .int n => .int n.toInt
  | .float x => if x.isFinite then .float x else .null
  | .string s => .string s
  | .list items => .array (toJsonItems items)
  | .map members => .object (toJsonMembers members)
  | .object typeName => .string (objectText typeName)
  | .listAgain => .string listAgainText
  | .mapAgain => .string mapAgainText

/-- The JSON forms of items. -/
def toJsonItems : List Tree → List Json
  | [] => []
  | x :: xs => toJson x :: toJsonItems xs

/-- The JSON forms of members. -/
def toJsonMembers : List (String × Tree) → List (String × Json)
  | [] => []
  | (key, x) :: ms => (key, toJson x) :: toJsonMembers ms
end

end Tree

namespace Heap

/-- The text of a value in the output of a template. -/
def text (h : Heap) (v : Value) : String := (h.tree v).text

/-- The inspection text of a value. -/
def inspection (h : Heap) (v : Value) : String := (h.tree v).inspection

/-- The JSON form of a value. -/
def toJson (h : Heap) (v : Value) : Json := (h.tree v).toJson

end Heap
end GatewayMapping
