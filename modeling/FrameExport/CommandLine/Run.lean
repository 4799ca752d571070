import FrameExport.CommandLine.Arguments

/-!
# The command line program

`CommandLine.run` is what the program does with its arguments: it prints help or refuses the command
line, or it exports a design file and tells where the page is.  What keeps the service from giving
the file and what is wrong with its structure are told in one line; any other failure is left to the
caller.
-/

namespace FrameExport

/-- What a run of the program leaves for the one who called it. -/
structure Outcome where
  exitCode : Nat
  output : String
  errors : String
deriving DecidableEq, Repr

namespace CommandLine

/-- The outcome of a command line that is not followed. -/
def stopped (stop : Arguments.Stop) : Outcome :=
  match stop with
  | .help => ⟨0, Arguments.helpText, ""⟩
  | _ => ⟨2, "", Arguments.usage ++ "figma-export: error: " ++ stop.message ++ "\n"⟩

/-- The path of the page as it is told: behind the directory, which is named even if it is the
working directory. -/
def pagePath (artifacts : Artifacts) : String :=
  let directory := artifacts.directory.text
  if directory.toList.getLast? = some '/' then directory ++ Artifacts.pageName
  else directory ++ "/" ++ Artifacts.pageName

/-- The outcome of an export. -/
def finished (result : Export) : Outcome :=
  ⟨0, "Done! Open " ++ pagePath result.artifacts ++ " in a browser.\n", ""⟩

/-- The outcome of a failure that is told in one line. -/
def failed (message : String) : Outcome := ⟨1, "", "error: " ++ message ++ "\n"⟩

/-- The cache that the arguments ask for.  One that is to be nowhere cannot be used. -/
def cacheOf (arguments : Arguments) : Except Fault (Option DocumentCache) :=
  if arguments.noCache then .ok none
  else
    match arguments.cachePlace with
    | .standard => .ok (some .standard)
    | .directory name => .ok (some (.ofDirectory name))
    | .nowhere => .error (.notAPath .array)

/-- The action that exports what the arguments ask for, with the token of the environment. -/
def exportAction (token : Option String) (arguments : Arguments) : Action Outcome := do
  let cache ← Action.ofExcept ((cacheOf arguments).mapError .value)
  let fetch := Export.source (.standard token) cache arguments.key
  let answer ← Action.attempt (Export.run fetch (.ofString arguments.directory))
  match answer with
  | .ok result => return finished result
  | .error (.service e) => return failed e.message
  | .error (.design (.structural e)) => return failed e.message
  | .error failure => Action.fail failure

/-- The paths that an export may read or write. -/
def paths (arguments : Arguments) : List Path :=
  let artifacts := Artifacts.inDirectory (.ofString arguments.directory)
  let kept := match cacheOf arguments with
    | .ok (some cache) => [cache.pathOf arguments.key]
    | _ => []
  kept ++ [artifacts.stylesheet, artifacts.page]

/-- The action of the program. -/
def run (token : Option String) (arguments : List String) : Action Outcome :=
  match Arguments.parse arguments with
  | .ok arguments => exportAction token arguments
  | .error stop => return stopped stop

end CommandLine

end FrameExport
