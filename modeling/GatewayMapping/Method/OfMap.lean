import GatewayMapping.Method.Error
import GatewayMapping.Value.Equality

/-!
# Methods of maps

The keys of maps are strings. A value of another kind stands for its text where a key is wanted.
-/

namespace GatewayMapping

/-- A method of maps. -/
inductive MapMethod where
  | size
  | isEmpty
  | toString
  | get
  | containsKey
  | containsValue
  | put
  | remove
  | putAll
  | clear
  | keySet
  | values
  | entrySet
  deriving DecidableEq, Repr, Inhabited

namespace MapMethod

/-- The method of a name. -/
def named? : String → Option MapMethod
  | "size" => some .size
  | "isEmpty" => some .isEmpty
  | "toString" => some .toString
  | "get" => some .get
  | "containsKey" => some .containsKey
  | "containsValue" => some .containsValue
  | "put" => some .put
  | "remove" => some .remove
  | "putAll" => some .putAll
  | "clear" => some .clear
  | "keySet" => some .keySet
  | "values" => some .values
  | "entrySet" => some .entrySet
  | _ => none

/-- New maps, each with the key and the value of a member. -/
def newEntries (h : Heap) : Fields Value → List Value × Heap
  | [] => ([], h)
  | (key, v) :: rest =>
    let (entry, h) := h.newMap (.ofList [("key", .string key), ("value", v)])
    let (entries, h) := newEntries h rest
    (entry :: entries, h)

/-- The value of a method, which may change the map. -/
def run (h : Heap) (ref : MapRef) (m : MapMethod) (args : List Value) : MethodResult :=
  let members := h.members ref
  match m, args with
  | .size, [] => .ok (.int (.ofNat members.size), h)
  | .isEmpty, [] => .ok (.bool members.entries.isEmpty, h)
  | .toString, [] => .ok (.string (h.text (.map ref)), h)
  | .get, [key] => .ok ((members.get? (h.text key)).getD .null, h)
  | .containsKey, [key] => .ok (.bool (members.contains (h.text key)), h)
  | .containsValue, [v] => .ok (.bool (members.values.any fun x => h.looselyEqual x v), h)
  | .put, [key, v] =>
    let key := h.text key
    .ok ((members.get? key).getD .null, h.setMembers ref (members.insert key v))
  | .remove, [key] =>
    let key := h.text key
    .ok ((members.get? key).getD .null, h.setMembers ref (members.erase key))
  | .putAll, [.map other] =>
    .ok (.string "", h.setMembers ref (members.insertAll (h.members other).entries))
  | .clear, [] => .ok (.string "", h.setMembers ref .empty)
  | .keySet, [] => .ok (h.newList (members.keys.map .string))
  | .values, [] => .ok (h.newList members.values)
  | .entrySet, [] =>
    let (entries, h) := newEntries h members.entries
    .ok (h.newList entries)
  | _, _ => .error .notFound

end MapMethod
end GatewayMapping
