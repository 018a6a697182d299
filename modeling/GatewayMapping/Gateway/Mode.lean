/-!
# The two sides of a gateway

A template maps either a request on its way in or a response on its way out.
-/

namespace GatewayMapping.Gateway

/-- The side on which a template stands. -/
inductive Mode where
  | request
  | response
  deriving DecidableEq, Repr, Inhabited

namespace Mode

/-- The name of a side. -/
def name : Mode → String
  | .request => "request"
  | .response => "response"

/-- The name under which errors show the template of a side. -/
def templateName : Mode → String
  | .request => "requestTemplate"
  | .response => "responseTemplate"

/-- The member of an envelope that holds the message. -/
def messageField : Mode → String
  | .request => "httpRequest"
  | .response => "httpResponse"

/-- What an envelope asks for to have the template of a side rendered. -/
def processingType : Mode → String
  | .request => "REQUEST_ONLY"
  | .response => "RESPONSE_ONLY"

/-- A word in small letters, where only the letters of ASCII count. -/
def lowered (word : String) : String := String.ofList (word.toList.map Char.toLower)

/-- The side that a word names, or the wording for a word that names none. -/
def ofWord (word : String) : Except String Mode :=
  match lowered word with
  | "request" => .ok .request
  | "response" => .ok .response
  | other => .error ("unknown mode '" ++ other ++ "', expected request or response")

end Mode
end GatewayMapping.Gateway
