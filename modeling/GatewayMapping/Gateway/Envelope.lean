import GatewayMapping.Gateway.Simulator

/-!
# Envelopes

An envelope is a JSON document that asks for a template to be rendered for a message. Each is
answered with a status, headers and a body.
-/

namespace GatewayMapping.Gateway

/-- The answer to an envelope. -/
structure Answer where
  status : Nat
  body : String
  deriving DecidableEq, Repr, Inhabited

/-- The headers of every answer. -/
def Answer.headers : List (String × String) :=
  [("Access-Control-Allow-Origin", "*"),
    ("Access-Control-Allow-Headers", "Content-Type,X-Amz-Date,Authorization,X-Api-Key"),
    ("Access-Control-Allow-Methods", "OPTIONS,POST")]

/-- An answer as a document. -/
def Answer.toJson (a : Answer) : Json :=
  .object [("statusCode", .int a.status),
    ("headers", .object (Answer.headers.map fun (key, value) => (key, .string value))),
    ("body", .string a.body)]

/-- Why an envelope has no output. -/
inductive EnvelopeError where
  | json (e : Json.ReadError)
  | missing (mode : Mode)
  | process (e : ProcessError)

namespace EnvelopeError

/-- The wording of an error. -/
def message : EnvelopeError → String
  | .json e => "JSON error: " ++ e.message
  | .missing mode => "Missing required " ++ mode.name ++ " parameters"
  | .process e => e.message

/-- What is behind an error, the nearest cause first. -/
def causes : EnvelopeError → List String
  | .json e => [e.message]
  | .process (.template f) => f.causes
  | _ => []

/-- An error with what is behind it, line by line. -/
def trace (e : EnvelopeError) : String :=
  e.causes.foldl (fun text cause => text ++ "    caused by: " ++ cause ++ "\n")
    (e.message ++ "\n")

/-- The diagnostic of a template that failed. -/
def diagnostic? : EnvelopeError → Option Diagnostic
  | .process (.template f) => some f.diagnostic
  | _ => none

/-- An error as a document. -/
def toJson (e : EnvelopeError) : Json :=
  .object ([("success", .bool false), ("error", .string e.message)] ++
    Diagnostic.optional "errorDetails" e.diagnostic? Diagnostic.toJson ++
    [("stackTrace", .string e.trace)])

end EnvelopeError

/-- The body of the answer to an envelope that asks for nothing known. -/
def unknownTypeBody : String := "\x7b\"success\":false, \"error\":\"Unknown request type\"\x7d"

/-- The side that an envelope asks for. -/
def requestedMode? (envelope : Json) : Option Mode :=
  ((envelope.member? "processingType").bind Json.string?).bind fun processingType =>
    [Mode.request, Mode.response].find? fun mode => mode.processingType = processingType

/-- The output that an envelope asks for. -/
def processEnvelope (config : Template.Config) (envelope : Json) (mode : Mode) :
    Except EnvelopeError String :=
  let field (key : String) := (envelope.member? key).bind Json.string?
  match field mode.messageField, field mode.templateName with
  | some raw, some template =>
    let context := Context.ofJson ((envelope.member? "contextVariables").getD .null)
    (process config raw template context mode).mapError .process
  | _, _ => .error (.missing mode)

/-- The answer to an envelope, or why it has none. -/
def dispatch (config : Template.Config) (event : String) : Except EnvelopeError Answer := do
  let envelope ← (Json.parse event).mapError .json
  match requestedMode? envelope with
  | some mode => return ⟨200, ← processEnvelope config envelope mode⟩
  | none => return ⟨400, unknownTypeBody⟩

/-- The answer to an envelope. -/
def answer (config : Template.Config) (event : String) : Answer :=
  match dispatch config event with
  | .ok a => a
  | .error e => ⟨400, e.toJson.compact⟩

end GatewayMapping.Gateway
