import GatewayMapping.Http.Message
import GatewayMapping.Json.Stream

/-!
# Messages written as JSON

A message is an object with a member for each of its parts, or an array of the parts in order.
Only the method may be missing; members with other names have no meaning.
-/

namespace GatewayMapping.Http

open Json (Stream)

/-- The parts of a message decoded so far. -/
structure MessageParts where
  method : Option (Option String) := none
  path : Option String := none
  query : Option (OrderedMap String) := none
  headers : Option (OrderedMap String) := none
  pathParams : Option (OrderedMap String) := none
  body : Option String := none

namespace MessageParts

/-- What a message document should be. -/
def expected : String := "struct ParsedMessage"

/-- Decodes the value of a member, which must not have come before. -/
def once {α : Type} (name : String) (old : Option α) (d : Stream α) : Stream (Option α) := do
  if old.isSome then
    let _ ← Stream.read Json.Read.next?
    Stream.unfit (.duplicateField name)
  else
    Stream.colon
    return some (← d)

/-- Decodes a member after its key. -/
def member (m : MessageParts) (key : String) : Stream MessageParts := do
  match key with
  | "method" => return { m with method := ← once key m.method Stream.string? }
  | "path" => return { m with path := ← once key m.path Stream.string }
  | "queryParams" => return { m with query := ← once key m.query Stream.stringMap }
  | "headers" => return { m with headers := ← once key m.headers Stream.stringMap }
  | "pathParams" => return { m with pathParams := ← once key m.pathParams Stream.stringMap }
  | "body" => return { m with body := ← once key m.body Stream.string }
  | _ =>
    Stream.colon
    let _ ← Stream.read (Json.Read.value Json.greatestDepth)
    return m

/-- A part that must be there. -/
def required {α : Type} (name : String) : Option α → Stream α
  | some x => return x
  | none => Stream.unfit (.missingField name)

/-- The message of all parts. -/
def complete (m : MessageParts) : Stream Message := do
  return {
    method := m.method.getD none
    path := ← required "path" m.path
    query := ← required "queryParams" m.query
    headers := ← required "headers" m.headers
    pathParams := ← required "pathParams" m.pathParams
    body := ← required "body" m.body }

/-- Decodes an item of an array, before which `count` others stand. -/
def item {α : Type} (count : Nat) (d : Stream α) : Stream α := do
  let missing := do
    Stream.read Json.Read.drop
    Stream.unfit (.wrongLength count (expected ++ " with 6 elements"))
  match ← Stream.read Json.Read.next? with
  | none => Stream.read (Json.Read.failNext .endInList)
  | some ']' => missing
  | some c =>
    if count = 0 then d
    else if c = ',' then
      Stream.read Json.Read.drop
      match ← Stream.read Json.Read.next? with
      | some ']' => Stream.read (Json.Read.failNext .trailingComma)
      | none => Stream.read (Json.Read.failNext .endInValue)
      | some _ => d
    else Stream.read (Json.Read.failNext .expectedListEnd)

/-- Decodes the parts in order. -/
def items : Stream Message := do
  Stream.read Json.Read.drop
  let method ← item 0 Stream.string?
  let path ← item 1 Stream.string
  let query ← item 2 Stream.stringMap
  let headers ← item 3 Stream.stringMap
  let pathParams ← item 4 Stream.stringMap
  let body ← item 5 Stream.string
  Stream.read do
    match ← Json.Read.next? with
    | some ']' => Json.Read.drop
    | none => Json.Read.failNext .endInList
    | some ',' =>
      Json.Read.drop
      match ← Json.Read.next? with
      | some ']' => Json.Read.failNext .trailingComma
      | _ => Json.Read.failNext .trailingCharacters
    | some _ => Json.Read.failNext .trailingCharacters
  return { method, path, query, headers, pathParams, body }

end MessageParts

/-- Decodes a message. -/
def Message.decode : Stream Message := do
  match ← Stream.read Json.Read.next? with
  | some '[' => MessageParts.items
  | _ => (← Stream.object MessageParts.expected MessageParts.member {}).complete

/-- The message that a JSON text writes, or what is wrong with the text. -/
def Message.ofJsonText (text : String) : Except String Message := Message.decode.run text

end GatewayMapping.Http
