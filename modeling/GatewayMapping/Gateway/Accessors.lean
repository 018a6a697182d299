import GatewayMapping.Gateway.Body
import GatewayMapping.Gateway.Tools
import GatewayMapping.Json.Printer
import GatewayMapping.Method.Invoke

/-!
# The objects of templates

`$input` gives templates the body and the parameters of a message, and `$util` gives them the text
tools. A method with a null argument gives null.
-/

namespace GatewayMapping.Gateway

/-- The message behind `$input`. The parameters are the maps that templates see under names of
their own, so that a change of one is seen here. -/
structure Input where
  body : Body
  parsedBody : Value
  path : MapRef
  query : MapRef
  header : MapRef

namespace Input

/-- The text between two characters, if it begins and ends with them. -/
def isBetween (first last : Char) (s : String) : Bool :=
  s.toList.head? = some first && s.toList.getLast? = some last

/-- Whether a text looks like a JSON object or array. -/
def looksLikeJson (s : String) : Bool := isBetween '\x7b' '\x7d' s || isBetween '[' ']' s

/-- What a JSON path leads to, as a JSON text. A string that looks like an object or an array is
that text. -/
def json (input : Input) (expression : String) : String :=
  match input.body.find expression with
  | .error _ => "null"
  | .ok (.string s) => if looksLikeJson s then s else Json.compact (.string s)
  | .ok j => j.compact

/-- The first of the parameters of a name: from the path, the query or the header. -/
def param (input : Input) (h : Heap) (name : String) : Value :=
  (([input.path, input.query, input.header].filterMap fun ref =>
    (h.members ref).get? name).head?).getD .null

/-- All parameters. -/
def params (input : Input) (h : Heap) : Value × Heap :=
  h.newMap (.ofList [("path", .map input.path), ("querystring", .map input.query),
    ("header", .map input.header)])

/-- Calls a method. -/
def invoke (input : Input) (h : Heap) (method : String) (args : List Value) : MethodResult :=
  match method, args with
  | "getBody", [] => .ok (.string input.body.text, h)
  | "parsedBody", [] => .ok (input.parsedBody, h)
  | "params", [] => .ok (input.params h)
  | "json", [.null] => .ok (.string "null", h)
  | "path", [.null] | "params", [.null] => .ok (.null, h)
  | "json", [.string expression] => .ok (.string (input.json expression), h)
  | "path", [.string expression] => .ok (input.body.pathValue h expression)
  | "params", [.string name] => .ok (input.param h name, h)
  | _, _ => .error .notFound

/-- The name of the type of the object. -/
def typeName : String := "Input"

/-- The message as an object of templates. -/
def host (input : Input) : HostObject := ⟨typeName, input.invoke⟩

/-- The message of a body, whose own JSON is put on the heap. -/
def ofBody (h : Heap) (body : String) (path query header : MapRef) : Input × Heap :=
  let (parsed, h) := Tool.ofJsonText h body
  (⟨.ofText body, parsed, path, query, header⟩, h)

end Input

namespace Tool

/-- Calls a text tool. -/
def invoke (h : Heap) (method : String) (args : List Value) : MethodResult :=
  match named? method, args with
  | some _, [.null] => .ok (.null, h)
  | some tool, [.string s] => .ok (tool.run h s)
  | _, _ => .error .notFound

/-- The name of the type of the object. -/
def typeName : String := "Util"

/-- The text tools as an object of templates. -/
def host : HostObject := ⟨typeName, invoke⟩

end Tool

/-- The reference to the message in the table of objects. -/
def inputRef : ObjectRef := ⟨0, Input.typeName⟩

/-- The reference to the text tools in the table of objects. -/
def toolsRef : ObjectRef := ⟨1, Tool.typeName⟩

/-- The table of the objects of templates. -/
def hosts (input : Input) : Hosts := [input.host, Tool.host]

end GatewayMapping.Gateway
