import GatewayMapping.Files.Tree
import GatewayMapping.Gateway.Mode

/-!
# Scenarios

A scenario is a directory with a template and a message. `Scenario.discover` finds all scenarios of
a file tree, in the order of their paths.
-/

namespace GatewayMapping

open Gateway (Mode)

/-- A directory with a template and a message, and the way to it. -/
structure Scenario where
  path : List String
  mode : Mode
  directory : FileTree
  deriving Inhabited

namespace Scenario

/-- The file with the template. -/
def templateFile : String := "template.vtl"

/-- The file with the message of a side. -/
def messageFile : Mode → String
  | .request => "request.http"
  | .response => "response.http"

/-- The file with the context, which may be missing. -/
def contextFile : String := "context.json"

/-- The file with the expected output, which may be missing. -/
def expectedFile : String := "expected.json"

/-- The side that the template of a directory stands on, if the directory is a scenario. Of two
messages, the request counts. -/
def mode? (t : FileTree) : Option Mode :=
  if t.holdsFile templateFile then
    [Mode.request, Mode.response].find? fun mode => t.holdsFile (messageFile mode)
  else none

mutual
/-- The scenarios in a tree that lies at a path. -/
def among (path : List String) : FileTree → List Scenario
  | .file _ => []
  | .directory entries =>
    let t := FileTree.directory entries
    (mode? t).toList.map (fun mode => ⟨path, mode, t⟩) ++ amongEntries path entries

/-- The scenarios in the entries of the directory at a path. -/
def amongEntries (path : List String) : List (String × FileTree) → List Scenario
  | [] => []
  | (name, t) :: entries => among (path ++ [name]) t ++ amongEntries path entries
end

/-- Whether a path stands before another or is the same. Paths are compared part by part, and a
directory stands before what it holds. -/
def pathLE : List String → List String → Bool
  | [], _ => true
  | _ :: _, [] => false
  | a :: as, b :: bs => if a = b then pathLE as bs else decide (a < b)

/-- The scenarios of a tree in the order of their paths. -/
def discover (root : FileTree) : List Scenario :=
  (among [] root).mergeSort fun a b => pathLE a.path b.path

/-- The name of a scenario: the way to it from the root. -/
def name (s : Scenario) : String :=
  if s.path.isEmpty then "." else "/".intercalate s.path

end Scenario
end GatewayMapping
