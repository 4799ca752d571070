import FrameExport.CommandLine.Run

/-!
# The program

The outer layer of the command line: it reads what the disk holds where an export may look, performs
`CommandLine.run` on that, and writes back what has changed.  It has no connection to the service,
so only files in the cache can be exported; every request counts as unreachable.
-/

namespace FrameExport

/-- What lies at a path on the disk. -/
def entryOnDisk (path : String) : IO (Option Entry) := do
  let place := (← IO.currentDir).join path
  if ← place.isDir then return some .directory
  else if ← place.pathExists then return some (.file (← IO.FS.readBinFile place))
  else return none

/-- The tree with what the disk holds at a path and at the directories on the way. -/
def loadPath (tree : FileTree) (path : Path) : IO FileTree :=
  (List.range path.names.length).foldlM (fun tree n => do
    let path := { path with names := path.names.take (n + 1) }
    match tree.locate path, ← entryOnDisk path.text with
    | .ok location, some entry => return tree.set location entry
    | _, _ => return tree) tree

/-- The tree that holds the working directory and the directories above it. -/
def workingTree : IO FileTree := do
  let here := (Path.ofString (← IO.currentDir).toString).names
  return ⟨here, (List.range here.length).map fun n => (here.take (n + 1), .directory)⟩

/-- Writes what differs from a former tree to the disk, what was set first in front. -/
def save (before after : FileTree) : IO Unit :=
  after.entries.reverse.forM fun (location, entry) => do
    let path := "/" ++ "/".intercalate location
    match entry, before.get? location with
    | .directory, none => IO.FS.createDirAll path
    | .file content, some (.file old) =>
      if content != old then IO.FS.writeBinFile path content
    | .file content, _ => IO.FS.writeBinFile path content
    | _, _ => return

/-- The line that a report makes. -/
def Event.line (event : Event) : String :=
  event.level.name ++ ":figma-static-export/" ++ event.area ++ ":" ++ event.message

/-- Runs the program and gives its exit code. -/
def runProgram (words : List String) : IO UInt32 := do
  let wanted := match Arguments.parse words with
    | .ok arguments => CommandLine.paths arguments
    | .error _ => []
  let tree ← wanted.foldlM loadPath (← workingTree)
  let action := CommandLine.run (← IO.getEnv "FIGMA_TOKEN") words
  let (answer, session) := action.perform (.start tree [] [])
  save tree session.files
  session.journal.forM fun event => IO.eprintln event.line
  match answer with
  | .ok outcome =>
    IO.print outcome.output
    IO.eprint outcome.errors
    return outcome.exitCode.toUInt32
  | .error _ =>
    IO.eprintln "error: the export failed"
    return 1

end FrameExport

def main (words : List String) : IO UInt32 := FrameExport.runProgram words
