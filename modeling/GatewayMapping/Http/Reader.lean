import GatewayMapping.Http.Message
import GatewayMapping.Text.Blank
import GatewayMapping.Text.Search

/-!
# Reading HTTP messages

A message is a line with a method and a target, header lines up to a blank line, and a body. Only
the first line can make a text unreadable: query pairs and header lines that are out of form are
taken for what can be made of them.
-/

namespace GatewayMapping.Http

/-- Why a text is no message. -/
inductive MessageError where
  | empty
  | malformed (line : String)
  deriving DecidableEq, Repr

/-- The wording of an error. -/
def MessageError.message : MessageError → String
  | .empty => "Invalid HTTP request: empty request"
  | .malformed line => "Invalid HTTP request line: " ++ line

namespace Message

/-- Drops the empty pieces at the end of a list. -/
def dropFinalEmpty (pieces : List (List Char)) : List (List Char) :=
  (pieces.reverse.dropWhile List.isEmpty).reverse

/-- Cuts a text at a separator and drops the empty pieces at the end. The empty text is one empty
piece; a text of separators only has none. -/
def pieces (separator : Char) (cs : List Char) : List (List Char) :=
  if cs.isEmpty then [[]] else dropFinalEmpty (Text.splitAt separator cs)

/-- A line without the carriage return at its end. -/
def dropReturn (line : List Char) : List Char :=
  if line.getLast? = some '\r' then line.dropLast else line

/-- The lines of a text without the empty ones at its end. -/
def lines (cs : List Char) : List (List Char) :=
  if cs.isEmpty then [[]] else dropFinalEmpty ((Text.splitAt '\n' cs).map dropReturn)

/-- A query pair; without a sign of equality the value is empty. -/
def queryPair (piece : List Char) : String × String :=
  match Text.cutAt? '=' piece with
  | some (key, value) => (String.ofList key, String.ofList value)
  | none => (String.ofList piece, "")

/-- The parameters of a query text. -/
def parseQuery (query : List Char) : OrderedMap String :=
  if query.isEmpty then .empty else .ofList ((pieces '&' query).map queryPair)

/-- The name and the value of a header line. A line without a colon, or that starts with one, is
no header. -/
def parseHeader? (line : List Char) : Option (String × String) :=
  match Text.cutAt? ':' line with
  | some (c :: name, value) =>
    some (String.ofList (Text.trimWhere Text.isBlank (c :: name)),
      String.ofList (Text.trimWhere Text.isBlank value))
  | _ => none

/-- The path and the query text of a target. -/
def splitTarget (target : List Char) : List Char × List Char :=
  (Text.cutAt? '?' target).getD (target, [])

/-- The lines of a body as one text. -/
def joinLines : List (List Char) → List Char
  | [] => []
  | [line] => line
  | line :: rest => line ++ '\n' :: joinLines rest

/-- The body that follows the blank line. -/
def bodyOf (rest : List (List Char)) : String :=
  String.ofList (Text.trimWhere Text.isBlank (joinLines rest))

/-- Reads a message. -/
def parse (raw : String) : Except MessageError Message :=
  match lines raw.toList with
  | [] => .error .empty
  | requestLine :: rest =>
    match pieces ' ' requestLine with
    | method :: target :: _ =>
      let (path, query) := splitTarget target
      let isHeaderLine (line : List Char) : Bool := !line.all Text.isBlank
      .ok {
        method := some (String.ofList method)
        path := String.ofList path
        query := parseQuery query
        headers := .ofList ((rest.takeWhile isHeaderLine).filterMap parseHeader?)
        pathParams := .empty
        body := bodyOf (rest.dropWhile isHeaderLine).tail }
    | _ => .error (.malformed (String.ofList requestLine))

end Message
end GatewayMapping.Http
