import GatewayMapping.CommandLine.Conclusion

/-!
# The command line

The outer layer: it takes a copy of the files that an invocation may look at, lets the invocation
run on the copy, and prints what comes of it.
-/

namespace GatewayMapping.Main

open CommandLine

/-- The error of the operating system that kept a file from being read. -/
def fileError : IO.Error → FileError
  | .noFileOrDirectory .. => .notFound
  | .permissionDenied .. => .denied
  | .inappropriateType .. => .notDirectory
  | _ => .notFound

/-- The text of bytes. -/
def textOf (bytes : ByteArray) : Except FileError String :=
  match String.fromUTF8? bytes with
  | some text => .ok text
  | none => .error .notText

/-- Copies what lies at a path. Inside directories, links to directories are left out. -/
partial def copy (path : String) : IO (Except FileError FileTree) := do
  let place := (← IO.currentDir) / path
  try
    if ← place.isDir then
      let entries ← (← place.readDir).toList.filterMapM fun entry => do
        let isLink := (← entry.path.symlinkMetadata).type == .symlink
        if isLink && (← entry.path.isDir) then return none
        let found ← copy (path ++ "/" ++ entry.fileName)
        return found.toOption.map fun t => (entry.fileName, t)
      return .ok (.directory entries)
    else return .ok (.file (textOf (← IO.FS.readBinFile place)))
  catch e => return .error (fileError e)

/-- Copies what lies at paths. -/
def copyAll (paths : List String) : IO Disk := do
  let copies ← paths.mapM fun path => do return (path, ← copy path)
  return fun path => ((copies.find? (·.1 = path)).map (·.2)).getD (.error .notFound)

/-- What an invocation can see. -/
def surroundings (i : Invocation) : IO Surroundings := do
  let disk ← copyAll i.paths
  let input ← if i.looksAtInput then textOf <$> (← IO.getStdin).readBinToEnd else pure (.ok "")
  return ⟨disk, input⟩

/-- The line that tells a misuse. -/
def misuseLine : String := "error: the arguments do not fit, try '--help'"

/-- Runs a command line and gives the status to end with. -/
def run (words : List String) : IO UInt32 := do
  let environment ← IO.getEnv "MAPSIM_CONFIG"
  let conclusion ← match Invocation.ofWords environment words with
    | .ok i => pure (Conclusion.ofEnding (i.run (← surroundings i)))
    | .error refusal => do
      if refusal = .misuse then IO.eprintln misuseLine
      pure (Conclusion.ofRefusal refusal)
  IO.print conclusion.output
  if let some error := conclusion.error? then IO.eprintln ("Error: " ++ error)
  return conclusion.status.toUInt32

end GatewayMapping.Main

/-- The program. -/
def main (words : List String) : IO UInt32 := GatewayMapping.Main.run words
