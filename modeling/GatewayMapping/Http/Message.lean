import GatewayMapping.Json.Basic

/-!
# HTTP messages

A request or response in parts. Headers, query and path parameters keep the order in which they
came; a repeated one keeps its place and takes the last value.
-/

namespace GatewayMapping.Http

/-- A message in parts. -/
structure Message where
  method : Option String
  path : String
  query : OrderedMap String
  headers : OrderedMap String
  pathParams : OrderedMap String
  body : String
  deriving DecidableEq, Repr, Inhabited

namespace Message

/-- A message of a method and a path only. -/
def ofRequest (method path : String) : Message :=
  { method := some method, path, query := .empty, headers := .empty, pathParams := .empty,
    body := "" }

/-- Whether a method and a path are known. -/
def hasRequestLine (m : Message) : Bool :=
  (match m.method with
    | some method => method ≠ ""
    | none => false) && m.path ≠ ""

/-- A map of texts as a JSON object. -/
def textObject (m : OrderedMap String) : Json := .object (m.entries.mapValues .string)

/-- The JSON form of a message. -/
def toJson (m : Message) : Json :=
  .object [("method", (m.method.map Json.string).getD .null), ("path", .string m.path),
    ("queryParams", textObject m.query), ("headers", textObject m.headers),
    ("pathParams", textObject m.pathParams), ("body", .string m.body)]

end Message
end GatewayMapping.Http
