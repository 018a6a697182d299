import GatewayMapping.Files.Tree
import GatewayMapping.Gateway.Context

/-!
# Input files

Texts and contexts that are read from files. A fault names the file as it was asked for.
-/

namespace GatewayMapping

/-- What is wrong with an input. -/
inductive InputFault where
  | unreadable (path : String) (e : FileError)
  | unreadableEnvelope (e : FileError)
  | badContext (path : String) (e : Json.ReadError)
  | badConfig (path : String)

/-- The wording of a fault. -/
def InputFault.message : InputFault → String
  | .unreadable path e => "Failed to read " ++ path ++ ": " ++ e.message
  | .unreadableEnvelope e => "Failed to read envelope from stdin: " ++ e.message
  | .badContext path e => "Invalid context JSON in " ++ path ++ ": " ++ e.message
  | .badConfig path => "Failed to parse engine config " ++ path

/-- The text of what was found at a path. -/
def readText (path : String) (found : Except FileError FileTree) : Except InputFault String :=
  (found.bind FileTree.read).mapError (.unreadable path)

/-- The context of a document: a document with a member `context` or `stageVariables` has the
parts under these names, and any other document is the context itself. -/
def contextOfDocument (j : Json) : Gateway.Context :=
  if (j.member? "context").isSome || (j.member? "stageVariables").isSome then .ofJson j
  else .ofJson (.object [("context", j)])

/-- The context in what was found at a path. -/
def readContext (path : String) (found : Except FileError FileTree) :
    Except InputFault Gateway.Context := do
  let text ← readText path found
  return contextOfDocument (← (Json.parse text).mapError (.badContext path))

end GatewayMapping
