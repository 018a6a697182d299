import GatewayMapping.Decimal.Double
import GatewayMapping.Method.OfList
import GatewayMapping.Method.OfMap
import GatewayMapping.Method.OfString

/-!
# Calling methods

A method is chosen by the kind of the value it is called on. The methods of host objects are
given from outside, in a table of `HostObject`s.
-/

namespace GatewayMapping

/-- An object of the program around the templates, with its methods. -/
structure HostObject where
  typeName : String
  invoke : Heap → (method : String) → (args : List Value) → MethodResult

/-- The host objects, each at the index by which values refer to it. -/
abbrev Hosts := List HostObject

namespace Method

/-- A method of numbers. -/
def ofNumber (h : Heap) (target : Value) (method : String) (args : List Value) : MethodResult :=
  match method, args with
  | "intValue", [] | "longValue", [] =>
    .ok (match target with
      | .float x => .int (Decimal.truncate x)
      | v => v, h)
  | "doubleValue", [] | "floatValue", [] =>
    .ok (match target.float? with
      | some x => .float x
      | none => .null, h)
  | "toString", [] => .ok (.string (h.text target), h)
  | "equals", [v] => .ok (.bool (h.equal v target), h)
  | "compareTo", [v] =>
    match target.float?, v.float? with
    | some x, some y => .ok (.int (if x < y then -1 else if y < x then 1 else 0), h)
    | _, _ => .error .notFound
  | _, _ => .error .notFound

/-- A method of truth values. -/
def ofBool (h : Heap) (b : Bool) (method : String) (args : List Value) : MethodResult :=
  match method, args with
  | "booleanValue", [] => .ok (.bool b, h)
  | "toString", [] => .ok (.string (h.text (.bool b)), h)
  | "equals", [v] => .ok (.bool (h.equal v (.bool b)), h)
  | _, _ => .error .notFound

/-- A method found by its name, or the answer that there is none. -/
def orNotFound {μ : Type} (m? : Option μ) (run : μ → List Value → MethodResult)
    (args : List Value) : MethodResult :=
  match m? with
  | some m => run m args
  | none => .error .notFound

/-- Calls a method of a value. -/
def invoke (hosts : Hosts) (h : Heap) (target : Value) (method : String) (args : List Value) :
    MethodResult :=
  match target with
  | .null => .error .notFound
  | .bool b => ofBool h b method args
  | .int _ | .float _ => ofNumber h target method args
  | .string s => orNotFound (StringMethod.named? method) (StringMethod.run h s) args
  | .list ref => orNotFound (ListMethod.named? method) (ListMethod.run h ref) args
  | .map ref => orNotFound (MapMethod.named? method) (MapMethod.run h ref) args
  | .object ref => orNotFound hosts[ref.index]? (fun host => host.invoke h method) args

/-- The value of a property that is no key of a map: the method `get` with the name of the
property, or else the method `is` with it. -/
def getter (hosts : Hosts) (h : Heap) (target : Value) (name : String) : MethodResult :=
  let capitalized := Text.capitalize name
  match invoke hosts h target ("get" ++ capitalized) [] with
  | .error .notFound => invoke hosts h target ("is" ++ capitalized) []
  | result => result

/-- The value of a property. -/
def property (hosts : Hosts) (h : Heap) (target : Value) (name : String) : MethodResult :=
  match target with
  | .null => .error .notFound
  | .map ref => .ok (((h.members ref).get? name).getD .null, h)
  | _ => getter hosts h target name

/-- The value at an index. -/
def index (hosts : Hosts) (h : Heap) (target i : Value) : MethodResult :=
  match target with
  | .map ref => .ok (((h.members ref).get? (h.text i)).getD .null, h)
  | .list _ | .object _ => invoke hosts h target "get" [i]
  | _ => .error .notFound

end Method
end GatewayMapping
