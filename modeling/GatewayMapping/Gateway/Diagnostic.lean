import GatewayMapping.Gateway.Mode
import GatewayMapping.Json.Basic
import GatewayMapping.Template.RenderError
import GatewayMapping.Text.Blank
import GatewayMapping.Text.Search

/-!
# Diagnostics

What a gateway tells about a template that failed. The kind of a diagnostic is found from the
wording of the error: an invocation that speaks of a reference that is not defined is an error of
references, whoever wrote these words.
-/

namespace GatewayMapping.Gateway

/-- The kinds of diagnostics. -/
inductive DiagnosticKind where
  | syntaxError
  | referenceError
  | methodError
  | resourceError
  | unknownError
  deriving DecidableEq, Repr, Inhabited

/-- The name of a kind. -/
def DiagnosticKind.name : DiagnosticKind → String
  | .syntaxError => "SYNTAX_ERROR"
  | .referenceError => "REFERENCE_ERROR"
  | .methodError => "METHOD_ERROR"
  | .resourceError => "RESOURCE_ERROR"
  | .unknownError => "UNKNOWN_ERROR"

/-- What is told about a template that failed. -/
structure Diagnostic where
  message : String
  kind : DiagnosticKind
  mode : Mode
  line : Option Nat
  column : Option Nat
  context : Option String
  deriving DecidableEq, Repr, Inhabited

namespace Diagnostic

/-- The words that mark an error of references. -/
def undefinedWords : String := "reference is not defined"

/-- Whether a text has the words that mark an error of references. -/
def speaksOfUndefined (s : String) : Bool := Text.occursIn undefinedWords.toList s.toList

/-- The part of a text from its first `$` up to a character, without blanks at its ends. -/
def nameUpTo? (last : Char) (s : String) : Option String :=
  match s.toList.dropWhile (· ≠ '$') with
  | [] => none
  | cs => some (String.ofList (Text.trimWhere Text.isBlank (cs.takeWhile (· ≠ last))))

/-- The variable that a text speaks of. -/
def variableContext (s : String) : Option String :=
  (nameUpTo? ' ' s).map fun name => "Variable: " ++ name

/-- The method that a text speaks of. -/
def methodContext (s : String) : Option String :=
  (nameUpTo? '(' s).map fun name => "Method: " ++ name

/-- A message about a template of a side. -/
def about (mode : Mode) (what : String) (r : Template.Report) : String :=
  what ++ " in " ++ mode.name ++ " template: " ++ r.text

/-- The diagnostic of an error. -/
def ofReport (r : Template.Report) (mode : Mode) : Diagnostic :=
  match r.kind with
  | .malformed =>
    { message := about mode "VTL syntax error" r, kind := .syntaxError, mode
      line := some r.position.line, column := some r.position.column, context := none }
  | .invocation _ cause =>
    if speaksOfUndefined r.text || cause.any speaksOfUndefined then
      let message := about mode "Reference error" r
      { message, kind := .referenceError, mode, line := some r.position.line, column := none
        context := variableContext message }
    else
      let message := about mode "Error in method invocation" r ++
        match cause with
        | some cause => " - " ++ cause
        | none => ""
      { message, kind := .methodError, mode, line := some r.position.line, column := none
        context := cause.bind methodContext }
  | .resource _ =>
    let message := about mode "Resource not found" r
    { message, kind := .resourceError, mode, line := none, column := none
      context := variableContext message }
  | .runtime =>
    { message := r.text, kind := .unknownError, mode, line := none, column := none
      context := none }

/-- A member that is there only if it has a value. -/
def optional {α : Type} (key : String) (value : Option α) (f : α → Json) :
    List (String × Json) :=
  match value with
  | some x => [(key, f x)]
  | none => []

/-- A diagnostic as a document. -/
def toJson (d : Diagnostic) : Json :=
  .object ([("message", .string d.message), ("type", .string d.kind.name),
    ("templateType", .string d.mode.name)] ++ optional "lineNumber" d.line (fun n => .int n) ++
    optional "columnNumber" d.column (fun n => .int n) ++
    optional "context" d.context .string)

end Diagnostic
end GatewayMapping.Gateway
