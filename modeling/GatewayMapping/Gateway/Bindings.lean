import GatewayMapping.Gateway.Accessors
import GatewayMapping.Gateway.Context
import GatewayMapping.Gateway.Mode
import GatewayMapping.Http.Message
import GatewayMapping.Template.Render

/-!
# The variables of a mapping template

Every render begins with the same variables, made anew from a message and a context. A template of
a response sees no parameters; one of a request has the method and the path in its context.
-/

namespace GatewayMapping.Gateway

/-- What a render begins with: the state, and the objects that it refers to. -/
structure Bindings where
  input : Input
  state : Template.State

namespace Bindings

/-- A new map of texts. -/
def newTexts (h : Heap) (m : OrderedMap String) : MapRef × Heap :=
  (⟨h.maps.size⟩, (h.newMap (.ofList (m.entries.mapValues .string))).2)

/-- The context that the template of a message sees. -/
def contextOf (message : Http.Message) (context : Context) (mode : Mode) : Context :=
  match mode, message.method with
  | .request, some method =>
    if message.hasRequestLine then context.withRequest method message.path else context
  | _, _ => context

/-- The parameters that a template sees. -/
def visible (mode : Mode) (m : OrderedMap String) : OrderedMap String :=
  match mode with
  | .request => m
  | .response => .empty

/-- The bindings for a message. -/
def ofMessage (message : Http.Message) (context : Context) (mode : Mode) : Bindings :=
  let context := contextOf message context mode
  let (header, h) := newTexts .empty (visible mode message.headers)
  let (path, h) := newTexts h (visible mode message.pathParams)
  let (query, h) := newTexts h (visible mode message.query)
  let (input, h) := Input.ofBody h message.body path query header
  let (contextValue, h) := h.ofJson context.contextJson
  let (stageVariables, h) := h.ofJson context.stageVariablesJson
  { input
    state := {
      heap := h
      scope := .ofList [("input", .object inputRef), ("util", .object toolsRef),
        ("header", .map header), ("path", .map path), ("query", .map query),
        ("context", contextValue), ("stageVariables", stageVariables)] } }

end Bindings
end GatewayMapping.Gateway
