import GatewayMapping.Method.Error
import GatewayMapping.Value.Equality

/-!
# Methods of lists
-/

namespace GatewayMapping

/-- A method of lists. -/
inductive ListMethod where
  | size
  | isEmpty
  | toString
  | get
  | contains
  | indexOf
  | add
  | set
  | remove
  | addAll
  | clear
  | subList
  deriving DecidableEq, Repr, Inhabited

namespace ListMethod

/-- The method of a name. -/
def named? : String → Option ListMethod
  | "size" => some .size
  | "isEmpty" => some .isEmpty
  | "toString" => some .toString
  | "get" => some .get
  | "contains" => some .contains
  | "indexOf" => some .indexOf
  | "add" => some .add
  | "set" => some .set
  | "remove" => some .remove
  | "addAll" => some .addAll
  | "clear" => some .clear
  | "subList" => some .subList
  | _ => none

/-- The position of an index below a bound. -/
def position (index : Int64) (bound length : Nat) : Except MethodError Nat :=
  if 0 ≤ index.toInt ∧ index.toInt < bound then .ok index.toInt.toNat
  else .error (.failed (.item index.toInt length))

/-- The position of the first item that equals a value. -/
def find? (h : Heap) (items : List Value) (v : Value) : Option Nat :=
  items.findIdx? fun x => h.looselyEqual x v

/-- The value of a method, which may change the list. -/
def run (h : Heap) (ref : ListRef) (m : ListMethod) (args : List Value) : MethodResult :=
  let items := h.items ref
  let size := items.length
  match m, args with
  | .size, [] => .ok (.int (.ofNat size), h)
  | .isEmpty, [] => .ok (.bool items.isEmpty, h)
  | .toString, [] => .ok (.string (h.text (.list ref)), h)
  | .get, [.int i] => do
    let i ← position i size size
    return (items[i]?.getD .null, h)
  | .contains, [v] => .ok (.bool (find? h items v).isSome, h)
  | .indexOf, [v] =>
    .ok (match find? h items v with
      | some i => .int (.ofNat i)
      | none => .int (-1), h)
  | .add, [v] => .ok (.bool true, h.setItems ref (items ++ [v]))
  | .add, [.int i, v] => do
    let i ← position i (size + 1) size
    return (.string "", h.setItems ref (items.take i ++ v :: items.drop i))
  | .set, [.int i, v] => do
    let i ← position i size size
    return (items[i]?.getD .null, h.setItems ref (items.set i v))
  | .remove, [.int i] => do
    let i ← position i size size
    return (items[i]?.getD .null, h.setItems ref (items.eraseIdx i))
  | .remove, [v] =>
    .ok (match find? h items v with
      | some i => (.bool true, h.setItems ref (items.eraseIdx i))
      | none => (.bool false, h))
  | .addAll, [.list other] =>
    let new := h.items other
    .ok (.bool !new.isEmpty, h.setItems ref (items ++ new))
  | .clear, [] => .ok (.string "", h.setItems ref [])
  | .subList, [.int first, .int last] =>
    if 0 ≤ first ∧ first ≤ last ∧ last.toInt ≤ size then
      .ok (h.newList ((items.take last.toInt.toNat).drop first.toInt.toNat))
    else .error (.failed (.subList first.toInt last.toInt size))
  | _, _ => .error .notFound

end ListMethod
end GatewayMapping
