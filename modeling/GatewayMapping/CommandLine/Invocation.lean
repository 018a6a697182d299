import GatewayMapping.CommandLine.Words
import GatewayMapping.Gateway.Mode
import GatewayMapping.OrderedMap

/-!
# Invocations

What a command line asks for. Switches that go for every command may stand before or after it;
of two values the one after it counts.
-/

namespace GatewayMapping.CommandLine

open Gateway (Mode)

/-- What is looked up in a body. -/
inductive Lookup where
  | dotted (path : String)
  | jsonPath (expression : String)
  deriving DecidableEq, Repr, Inhabited

/-- The commands with what they are told. Files and directories are given by their paths. -/
inductive Command where
  /-- Renders a template for a message. -/
  | render (mode : Mode) (message template : String) (context : Option String)
  /-- Answers an envelope, which is read from the standard input if there is no file. -/
  | handle (event : Option String) (bodyOnly : Bool)
  /-- Runs the scenarios in a directory. -/
  | scenario (directory : String) (failFast json : Bool)
  /-- Looks something up in a body, or in the body of a message. -/
  | query (body : String) (isMessage : Bool) (lookup : Lookup)
  deriving DecidableEq, Repr, Inhabited

/-- A command with what goes for every command. -/
structure Invocation where
  config : Option String
  lenient : Bool
  resources : List String
  command : Command
  deriving DecidableEq, Repr, Inhabited

/-- Why a command line asks for no command. -/
inductive Refusal where
  | misuse
  | help
  /-- The version of the program, or of a command. -/
  | version (command : Option String)
  deriving DecidableEq, Repr, Inhabited

namespace Invocation

/-- Paths are not empty. -/
def isPath (word : String) : Bool := word ≠ ""

/-- Whether a word names a side. -/
def isMode (word : String) : Bool := (Mode.ofWord word).isOk

/-- The switches that may stand with every command. How much is logged makes no difference to what
a command gives. -/
def commonSwitches : List Switch :=
  [{ name := "verbose", letter? := some 'v' }, { name := "quiet", letter? := some 'q' },
    { name := "log-json" }, { name := "config", takesValue := true, accepts := isPath },
    { name := "lenient" }, { name := "resource", takesValue := true, repeats := true }]

/-- What may stand after `render`. -/
def renderLevel : Level where
  switches := commonSwitches ++
    [{ name := "mode", letter? := some 'm', takesValue := true, accepts := isMode },
      { name := "message", takesValue := true, accepts := isPath },
      { name := "template", letter? := some 't', takesValue := true, accepts := isPath },
      { name := "context", letter? := some 'c', takesValue := true, accepts := isPath }]

/-- What may stand after `handle`. -/
def handleLevel : Level where
  switches := commonSwitches ++
    [{ name := "event", letter? := some 'e', takesValue := true, accepts := isPath },
      { name := "body-only" }]

/-- What may stand after `scenario`. -/
def scenarioLevel : Level where
  switches := commonSwitches ++ [{ name := "fail-fast" }, { name := "json" }]
  operands := 1
  acceptsOperand := isPath

/-- What may stand after `query`. -/
def queryLevel : Level where
  switches := commonSwitches ++
    [{ name := "body", letter? := some 'b', takesValue := true, accepts := isPath },
      { name := "message" }, { name := "path", takesValue := true },
      { name := "json-path", takesValue := true }]

/-- What may stand after each command. -/
def levels : List (String × Level) :=
  [("render", renderLevel), ("handle", handleLevel), ("scenario", scenarioLevel),
    ("query", queryLevel)]

/-- What may stand before the command. -/
def outerLevel : Level where
  switches := commonSwitches
  commands := "help" :: levels.map (·.1)

/-- What has to be there. -/
def required {α : Type} : Option α → Except Refusal α
  | some x => .ok x
  | none => .error .misuse

/-- The command of a name with what was found after it. -/
def commandOf (name : String) (f : Found) : Except Refusal Command := do
  match name with
  | "render" =>
    let mode ← match f.value? "mode" with
      | some word => required (Mode.ofWord word).toOption
      | none => pure .request
    return .render mode (← required (f.value? "message")) (← required (f.value? "template"))
      (f.value? "context")
  | "handle" => return .handle (f.value? "event") (f.has "body-only")
  | "scenario" =>
    return .scenario (← required f.operands.head?) (f.has "fail-fast") (f.has "json")
  | "query" =>
    let body ← required (f.value? "body")
    let lookup ← match f.value? "path", f.value? "json-path" with
      | some path, none => pure (.dotted path)
      | none, some expression => pure (.jsonPath expression)
      | _, _ => .error .misuse
    return .query body (f.has "message") lookup
  | _ => .error .misuse

/-- The configuration file: after the command, before it, or as the environment has it. The value
of the environment has to be a path unless it is overridden on both sides of the command. -/
def configOf (environment : Option String) (outer inner : Found) :
    Except Refusal (Option String) :=
  let given := (inner.value? "config").or (outer.value? "config")
  if environment.any (!isPath ·) && !(outer.has "config" && inner.has "config") then
    .error .misuse
  else .ok (given.or environment)

/-- The resources after the command or, if there are none, before it. -/
def resourcesOf (outer inner : Found) : List String :=
  if inner.has "resource" then inner.values "resource" else outer.values "resource"

/-- Asks for help on a command. -/
def helpFor : List String → Refusal
  | [] => .help
  | [name] => if name ∈ outerLevel.commands then .help else .misuse
  | _ => .misuse

/-- What a stop means after a command, or before one. -/
def refusalOf (command : Option String) : Stop → Refusal
  | .misuse => .misuse
  | .help => .help
  | .version => .version command

/-- The invocation of a command line, where the environment may name a configuration file. -/
def ofWords (environment : Option String) (words : List String) : Except Refusal Invocation := do
  match ← (outerLevel.read words).mapError (refusalOf none) with
  | (_, none) => .error .misuse
  | (_, some ("help", words)) => .error (helpFor words)
  | (outer, some (name, words)) =>
    let level ← required (Fields.get? levels name)
    let (inner, _) ← (level.read words).mapError (refusalOf (some name))
    let config ← configOf environment outer inner
    let command ← commandOf name inner
    return {
      config, command
      lenient := outer.has "lenient" || inner.has "lenient"
      resources := resourcesOf outer inner }

end Invocation
end GatewayMapping.CommandLine
