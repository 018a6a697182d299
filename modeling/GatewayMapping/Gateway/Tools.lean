import GatewayMapping.Json.Reader
import GatewayMapping.Text.Base64
import GatewayMapping.Text.Blank
import GatewayMapping.Text.ScriptString
import GatewayMapping.Value.OfJson

/-!
# Text tools

The functions that templates reach through `$util`. They are total: what a decoder cannot read is
given back as it is, and a text that holds no JSON object or array becomes null.
-/

namespace GatewayMapping.Gateway

/-- A text tool. -/
inductive Tool where
  | escapeJavaScript
  | urlEncode
  | urlDecode
  | base64Encode
  | base64Decode
  | parseJson
  deriving DecidableEq, Repr

namespace Tool

/-- The tool that templates call by a name. -/
def named? : String → Option Tool
  | "escapeJavaScript" => some .escapeJavaScript
  | "urlEncode" => some .urlEncode
  | "urlDecode" => some .urlDecode
  | "base64Encode" => some .base64Encode
  | "base64Decode" => some .base64Decode
  | "parseJson" => some .parseJson
  | _ => none

/-- The value of the JSON object or array that a text holds; null for any other text. -/
def ofJsonText (h : Heap) (s : String) : Value × Heap :=
  if Text.isAllBlank s then (.null, h)
  else
    match Json.parse s with
    | .ok (.object fields) => h.ofJson (.object fields)
    | .ok (.array items) => h.ofJson (.array items)
    | _ => (.null, h)

/-- What a tool makes of a text. -/
def run (h : Heap) (s : String) : Tool → Value × Heap
  | .escapeJavaScript => (.string (Text.ScriptString.encode s), h)
  | .urlEncode => (.string (Text.FormUrl.encode s), h)
  | .urlDecode => (.string (Text.FormUrl.decode s), h)
  | .base64Encode => (.string (Text.Base64.encode s), h)
  | .base64Decode => (.string (Text.Base64.decode s), h)
  | .parseJson => ofJsonText h s

end Tool
end GatewayMapping.Gateway
