import GatewayMapping.CommandLine.Invocation
import GatewayMapping.Gateway.Envelope
import GatewayMapping.Scenario.Report
import GatewayMapping.Template.ConfigFile

/-!
# Running commands

What a command prints and how it ends, given the files it can see and its standard input. The
configuration is read before anything else, also for commands that make no use of it.
-/

namespace GatewayMapping.CommandLine

/-- How a command fails. -/
inductive Failure where
  | input (fault : InputFault)
  | badArgument (reason : String)
  | template (reason : String)
  | scenarios (failed total : Nat)

namespace Failure

/-- The status with which a command ends that fails. -/
def status : Failure → Nat
  | .input _ => 1
  | .badArgument _ => 2
  | .template _ => 3
  | .scenarios _ _ => 4

/-- The wording of a failure. -/
def message : Failure → String
  | .input fault => fault.message
  | .badArgument reason => "Invalid argument: " ++ reason
  | .template reason => "Template failure: " ++ reason
  | .scenarios failed total =>
    toString failed ++ " of " ++ toString total ++ " scenarios failed"

end Failure

/-- What a command prints, and how it fails if it does. -/
structure Ending where
  output : String
  failure? : Option Failure := none

namespace Ending

/-- The status with which a command ends. -/
def status (e : Ending) : Nat := (e.failure?.map Failure.status).getD 0

/-- A command that prints lines. -/
def ofLines (lines : List String) : Ending := ⟨String.join (lines.map (· ++ "\n")), none⟩

end Ending

/-- What a command can see: files and its standard input. -/
structure Surroundings where
  disk : Disk
  input : Except FileError String

/-- A computation that a failure stops. -/
abbrev Attempt := Except Failure

namespace Attempt

/-- The text of a file. -/
def text (disk : Disk) (path : String) : Attempt String :=
  (readText path (disk path)).mapError .input

/-- The context of a file; it is empty if there is no file. -/
def context (disk : Disk) : Option String → Attempt Gateway.Context
  | none => .ok .empty
  | some path => (readContext path (disk path)).mapError .input

end Attempt

/-- The name and the file of a resource that is written `name=file`. -/
def resource (spec : String) : Attempt (String × String) :=
  match Text.cutAt? '=' spec.toList with
  | some (n :: name, f :: file) => .ok (String.ofList (n :: name), String.ofList (f :: file))
  | _ => .error (.badArgument ("--resource expects NAME=FILE, got '" ++ spec ++ "'"))

/-- Adds resources to a configuration, one after the other. -/
def addResources (disk : Disk) (config : Template.Config) : List String → Attempt Template.Config
  | [] => .ok config
  | spec :: rest => do
    let (name, file) ← resource spec
    let text ← Attempt.text disk file
    addResources disk { config with resources := config.resources.insert name text } rest

/-- The configuration of a file; it is the default if there is no file. -/
def readConfig (disk : Disk) : Option String → Attempt Template.Config
  | none => .ok {}
  | some path => do
    match Template.Config.ofYaml? (← Attempt.text disk path) with
    | some config => return config
    | none => .error (.input (.badConfig path))

namespace Invocation

/-- The configuration of an invocation. -/
def configuration (i : Invocation) (disk : Disk) : Attempt Template.Config := do
  let config ← readConfig disk i.config
  addResources disk (if i.lenient then { config with strict := false } else config) i.resources

end Invocation

namespace Command

/-- Renders a template for a message. The diagnostic of a template that fails is printed. -/
def runRender (disk : Disk) (config : Template.Config) (mode : Gateway.Mode)
    (message template : String) (context : Option String) : Attempt Ending := do
  let raw ← Attempt.text disk message
  let source ← Attempt.text disk template
  let context ← Attempt.context disk context
  match Gateway.process config raw source context mode with
  | .ok output => return .ofLines [output]
  | .error (.template f) =>
    return { Ending.ofLines [f.diagnostic.toJson.pretty] with
      failure? := some (.template f.diagnostic.message) }
  | .error (.unreadable e) => .error (.badArgument e.message)

/-- The envelope of a command. -/
def envelope (s : Surroundings) : Option String → Attempt String
  | some path => Attempt.text s.disk path
  | none => s.input.mapError fun e => .input (.unreadableEnvelope e)

/-- Answers an envelope. -/
def runHandle (s : Surroundings) (config : Template.Config) (event : Option String)
    (bodyOnly : Bool) : Attempt Ending := do
  let answer := Gateway.answer config (← envelope s event)
  let shown := Ending.ofLines [if bodyOnly then answer.body else answer.toJson.pretty]
  if answer.status = 200 then return shown
  else
    let reason := "handler returned status " ++ toString answer.status
    return { shown with failure? := some (.template reason) }

/-- The report on the scenarios in a directory. There has to be one. -/
def report (disk : Disk) (config : Template.Config) (directory : String) (failFast : Bool) :
    Attempt Scenario.Report := do
  let scenarios := ((disk directory).map Scenario.discover).toOption.getD []
  if scenarios.isEmpty then
    .error (.badArgument ("No scenarios found under " ++ directory))
  else
    return ⟨← (Scenario.runAll config directory failFast scenarios).mapError .input⟩

/-- Runs the scenarios in a directory. -/
def runScenarios (disk : Disk) (config : Template.Config) (directory : String)
    (failFast json : Bool) : Attempt Ending := do
  let report ← report disk config directory failFast
  let shown := Ending.ofLines (if json then [report.toJson.pretty] else report.lines)
  if report.failed = 0 then return shown
  else return { shown with failure? := some (.scenarios report.failed report.total) }

/-- The body that a query looks into. -/
def queriedBody (disk : Disk) (path : String) (isMessage : Bool) : Attempt Gateway.Body := do
  let text ← Attempt.text disk path
  if isMessage then
    let message ← (Http.Message.parse text).mapError fun e => .badArgument e.message
    return .ofText message.body
  else return .ofText text

/-- What a lookup finds in a body. What is not found is null, but a JSON path that is none is a
failure where there is a document. -/
def findIn (body : Gateway.Body) : Lookup → Attempt Json
  | .dotted path =>
    let (v, h) := body.dottedValue .empty path
    .ok (h.toJson v)
  | .jsonPath expression =>
    match body.find expression with
    | .ok j => .ok j
    | .error e =>
      match e.blame?, body.document with
      | some (path, reason), some _ =>
        .error (.badArgument ("invalid JSONPath '" ++ path ++ "': " ++ reason))
      | _, _ => .ok .null

/-- Looks something up in a body. -/
def runQuery (disk : Disk) (body : String) (isMessage : Bool) (lookup : Lookup) :
    Attempt Ending := do
  let body ← queriedBody disk body isMessage
  return .ofLines [(← findIn body lookup).pretty]

/-- Runs a command with a configuration. -/
def run (s : Surroundings) (config : Template.Config) : Command → Attempt Ending
  | .render mode message template context => runRender s.disk config mode message template context
  | .handle event bodyOnly => runHandle s config event bodyOnly
  | .scenario directory failFast json => runScenarios s.disk config directory failFast json
  | .query body isMessage lookup => runQuery s.disk body isMessage lookup

end Command

namespace Invocation

/-- Runs an invocation. -/
def run (s : Surroundings) (i : Invocation) : Ending :=
  match i.configuration s.disk >>= fun config => i.command.run s config with
  | .ok ending => ending
  | .error failure => { output := "", failure? := some failure }

/-- The paths that an invocation may look at. -/
def paths (i : Invocation) : List String :=
  i.config.toList ++ i.resources.filterMap (fun spec => (resource spec).toOption.map (·.2)) ++
    match i.command with
    | .render _ message template context => message :: template :: context.toList
    | .handle event _ => event.toList
    | .scenario directory _ _ => [directory]
    | .query body _ _ => [body]

/-- Whether an invocation looks at its standard input. -/
def looksAtInput (i : Invocation) : Bool :=
  match i.command with
  | .handle none _ => true
  | _ => false

end Invocation
end GatewayMapping.CommandLine
