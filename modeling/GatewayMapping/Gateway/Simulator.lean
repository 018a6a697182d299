import GatewayMapping.Gateway.Bindings
import GatewayMapping.Gateway.Diagnostic
import GatewayMapping.Http.Reader

/-!
# Simulating a mapping

`process` reads a raw message and renders the template of a side for it. A template that fails
gives a `Failure`, with a diagnostic and the error behind it.
-/

namespace GatewayMapping.Gateway

/-- A template that failed. -/
structure Failure where
  mode : Mode
  report : Template.Report
  deriving DecidableEq, Repr, Inhabited

namespace Failure

/-- What is told about a failure. -/
def diagnostic (f : Failure) : Diagnostic := .ofReport f.report f.mode

/-- What is behind a failure, the nearest cause first. -/
def causes (f : Failure) : List String :=
  ["Failed to render " ++ f.mode.templateName, f.report.text] ++ f.report.cause?.toList

/-- The texts of a failure and of all that is behind it. -/
def chain (f : Failure) : List String := f.diagnostic.message :: f.causes

end Failure

/-- Renders a template for a message. -/
def renderMessage (config : Template.Config) (message : Http.Message) (template : String)
    (context : Context) (mode : Mode) : Except Failure String :=
  let bindings := Bindings.ofMessage message context mode
  let run := Template.evaluate config (hosts bindings.input) mode.templateName template
  (run.run.run bindings.state).1.mapError fun e => ⟨mode, e.report⟩

/-- Why a mapping gives no output. -/
inductive ProcessError where
  | unreadable (e : Http.MessageError)
  | template (f : Failure)
  deriving Inhabited

/-- The wording of an error. -/
def ProcessError.message : ProcessError → String
  | .unreadable e => e.message
  | .template f => f.diagnostic.message

/-- Reads a message and renders a template for it. -/
def process (config : Template.Config) (raw template : String) (context : Context)
    (mode : Mode) : Except ProcessError String := do
  let message ← (Http.Message.parse raw).mapError .unreadable
  (renderMessage config message template context mode).mapError .template

end GatewayMapping.Gateway
