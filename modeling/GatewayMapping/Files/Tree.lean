import GatewayMapping.OrderedMap
import GatewayMapping.Text.Search

/-!
# File trees

A directory with all that is in it. A path names what one meets on the way from a directory: `.`
stays, `..` goes back, and a file has nothing below it.

## Main definitions

* `FileTree.find`: what a path leads to, or why it leads nowhere.
* `FileTree.read`: the text of a file, or why it cannot be read.
* `FileTree.ofFiles`: the tree of files given with their paths.
-/

namespace GatewayMapping

/-- Why a file cannot be read. -/
inductive FileError where
  | notFound
  | denied
  | notDirectory
  | isDirectory
  /-- The bytes of the file are not the UTF-8 form of a text. -/
  | notText
  deriving DecidableEq, Repr, Inhabited

/-- The wording of an error. -/
def FileError.message : FileError → String
  | .notFound => "No such file or directory (os error 2)"
  | .denied => "Permission denied (os error 13)"
  | .notDirectory => "Not a directory (os error 20)"
  | .isDirectory => "Is a directory (os error 21)"
  | .notText => "stream did not contain valid UTF-8"

/-- A file with its text, or a directory with what is in it. -/
inductive FileTree where
  | file (content : Except FileError String)
  | directory (entries : List (String × FileTree))
  deriving Inhabited

namespace FileTree

/-- What is in a directory; nothing is in a file. -/
def entries : FileTree → Fields FileTree
  | .file _ => []
  | .directory entries => entries

/-- What a directory holds under a name. -/
def entry? (t : FileTree) (name : String) : Option FileTree := t.entries.get? name

/-- Whether a tree is a file. -/
def isFile : FileTree → Bool
  | .file _ => true
  | .directory _ => false

/-- Whether a directory holds a file under a name. -/
def holdsFile (t : FileTree) (name : String) : Bool := (t.entry? name).any isFile

/-- The text of a file. -/
def read : FileTree → Except FileError String
  | .file content => content
  | .directory _ => .error .isDirectory

/-- Follows the parts of a path. The directories passed on the way are `behind`, the last one
first; nothing is known of what lies outside the first. -/
def follow : (behind : List FileTree) → FileTree → List String → Except FileError FileTree
  | _, t, [] => .ok t
  | _, .file _, _ :: _ => .error .notDirectory
  | behind, .directory entries, part :: parts =>
    if part = "" ∨ part = "." then follow behind (.directory entries) parts
    else if part = ".." then
      match behind with
      | [] => .error .notFound
      | t :: behind => follow behind t parts
    else
      match Fields.get? entries part with
      | none => .error .notFound
      | some t => follow (.directory entries :: behind) t parts

/-- The parts of a path. -/
def pathParts (path : String) : List String := (Text.splitAt '/' path.toList).map String.ofList

/-- What a path leads to. -/
def find (t : FileTree) (path : String) : Except FileError FileTree :=
  match pathParts path with
  | "" :: _ => .error .notFound
  | parts => follow [] t parts

/-- The tree with a file at a place, in directories that are made where they are missing. -/
def put (text : String) : List String → FileTree → FileTree
  | [], _ => .file (.ok text)
  | name :: parts, t =>
    .directory (t.entries.insert name (put text parts ((t.entry? name).getD (.directory []))))

/-- The tree of files with their paths. -/
def ofFiles (files : List (String × String)) : FileTree :=
  files.foldl (fun t (path, text) => put text (pathParts path) t) (.directory [])

/-- The path to an entry of the directory at a path. -/
def joinPath (path : String) (parts : List String) : String :=
  parts.foldl (fun path part =>
    if path.toList.getLast? = some '/' then path ++ part else path ++ "/" ++ part) path

end FileTree

/-- The files that a program can see: what each path leads to. -/
abbrev Disk := String → Except FileError FileTree

end GatewayMapping
