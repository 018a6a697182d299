import GatewayMapping.Json.Reader
import GatewayMapping.Value.OfJson

/-!
# The context of a request

What templates see as `$context` and `$stageVariables`. Both are empty unless they are given.
-/

namespace GatewayMapping.Gateway

/-- The context and the variables of the stage. -/
structure Context where
  context : OrderedMap Json
  stageVariables : OrderedMap Json

namespace Context

/-- The empty context. -/
def empty : Context := ⟨.empty, .empty⟩

instance : Inhabited Context := ⟨empty⟩

/-- The members of an object under a key, and none if there is no object. -/
def part (j : Json) (key : String) : OrderedMap Json :=
  .ofList (((j.member? key).bind Json.fields?).getD [])

/-- The context of a document with members `context` and `stageVariables`. -/
def ofJson (j : Json) : Context := ⟨part j "context", part j "stageVariables"⟩

/-- The context with a value under a key. -/
def set (c : Context) (key : String) (j : Json) : Context :=
  { c with context := c.context.insert key j }

/-- The context with the method and the path of a request. -/
def withRequest (c : Context) (method path : String) : Context :=
  (c.set "httpMethod" (.string method)).set "resourcePath" (.string path)

/-- The context as a document. -/
def contextJson (c : Context) : Json := .object c.context.entries

/-- The variables of the stage as a document. -/
def stageVariablesJson (c : Context) : Json := .object c.stageVariables.entries

end Context
end GatewayMapping.Gateway
