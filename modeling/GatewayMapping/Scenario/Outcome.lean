import GatewayMapping.Files.Input
import GatewayMapping.Gateway.Simulator
import GatewayMapping.Scenario.Basic

/-!
# Running scenarios

A scenario passes if its template renders and the output is the expected one, or if nothing is
expected. Two texts agree if both are JSON and equal as documents; texts that are not both JSON
agree if they differ by white space at their ends at most.
-/

namespace GatewayMapping.Scenario

/-- What comes of a scenario. -/
inductive Outcome where
  | passed
  | mismatch (expected actual : String)
  | failed (error : String)
  deriving DecidableEq, Repr, Inhabited

/-- Whether an output is the expected one. -/
def outputsAgree (expected actual : String) : Bool :=
  match Json.parse expected, Json.parse actual with
  | .ok e, .ok a => e.equal a
  | _, _ => Text.trim expected == Text.trim actual

/-- What comes of an output where a text is expected, or nothing is. -/
def judge (expected? : Option String) (actual : String) : Outcome :=
  match expected? with
  | none => .passed
  | some expected => if outputsAgree expected actual then .passed else .mismatch expected actual

/-- What a scenario at a root has under a name. -/
def found (s : Scenario) (name : String) : Except FileError FileTree :=
  match s.directory.entry? name with
  | some t => .ok t
  | none => .error .notFound

/-- The path to a file of a scenario. -/
def filePath (root : String) (s : Scenario) (name : String) : String :=
  FileTree.joinPath root (s.path ++ [name])

/-- The text of a file of a scenario. -/
def text (root : String) (s : Scenario) (name : String) : Except InputFault String :=
  readText (s.filePath root name) (s.found name)

/-- The context of a scenario. -/
def context (root : String) (s : Scenario) : Except InputFault Gateway.Context :=
  if s.directory.holdsFile contextFile then
    readContext (s.filePath root contextFile) (s.found contextFile)
  else .ok .empty

/-- The output that a scenario expects. -/
def expected? (root : String) (s : Scenario) : Except InputFault (Option String) :=
  if s.directory.holdsFile expectedFile then (s.text root expectedFile).map some else .ok none

/-- Runs a scenario. The expected output is looked at only if there is an output. -/
def run (config : Template.Config) (root : String) (s : Scenario) :
    Except InputFault Outcome := do
  let raw ← s.text root (messageFile s.mode)
  let template ← s.text root templateFile
  let context ← s.context root
  match Gateway.process config raw template context s.mode with
  | .ok actual => return judge (← s.expected? root) actual
  | .error e => return .failed e.message

end GatewayMapping.Scenario
