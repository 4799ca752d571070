import FrameExport.CommandLine.Token
import FrameExport.Export
import FrameExport.Json.Literal

/-!
# The arguments of the command line

The command line names the key of a design file and, if need be, the directory for the artifacts.
Both must stand side by side: the directory is the word that follows the key at once, and every
other word is refused.  Options may stand anywhere.

`Arguments.parse` reads a command line and stops at the first thing that cannot be followed; help is
given as soon as it is asked for.
-/

namespace FrameExport

/-- Where a command line wants the cache to be. -/
inductive CachePlace where
  /-- Nothing is said about the cache. -/
  | standard
  | directory (name : String)
  /-- Two hyphens are attached to the option.  They are dropped, and no name is left. -/
  | nowhere
deriving DecidableEq, Repr

/-- The place that the text attached to the option names. -/
def CachePlace.ofAttached (text : String) : CachePlace :=
  if text = "--" then .nowhere else .directory text

/-- What a command line asks for. -/
structure Arguments where
  key : String
  directory : String
  noCache : Bool
  cachePlace : CachePlace
deriving DecidableEq, Repr

namespace Arguments

/-- Why a command line is not followed. -/
inductive Stop where
  /-- Help was asked for. -/
  | help
  /-- The key is missing. -/
  | keyMissing
  /-- There are arguments that mean nothing. -/
  | unrecognized (arguments : List String)
  /-- An option lacks its value. -/
  | valueMissing (flag : Flag)
  /-- An option that takes no value was given one. -/
  | valueIgnored (flag : Flag) (value : String)
  | ambiguous (argument : Token.Ambiguous)
deriving DecidableEq, Repr

/-! ### Texts -/

/-- The two lines that tell how the program is called. -/
def usage : String :=
  "usage: figma-export [-h] [--no-cache] [--cache-dir CACHE_DIR]\n"
    ++ "                    file_key [out_dir]\n"

/-- The help. -/
def helpText : String :=
  usage
    ++ "\nExportera huvudramen i en Figma-fil till statisk HTML + CSS.\n"
    ++ "\npositional arguments:\n"
    ++ "  file_key              Figma-filens nyckel (från URL:en).\n"
    ++ "  out_dir               Utkatalog (default: dist).\n"
    ++ "\noptions:\n"
    ++ "  -h, --help            show this help message and exit\n"
    ++ "  --no-cache            Hämta alltid från API:t och skriv inte cache.\n"
    ++ "  --cache-dir CACHE_DIR\n"
    ++ "                        Katalog för cache av rå fil-JSON.\n"

/-- What is wrong with a command line. -/
def Stop.message : Stop → String
  | .help => ""
  | .keyMissing => "the following arguments are required: file_key"
  | .unrecognized arguments => "unrecognized arguments: " ++ " ".intercalate arguments
  | .valueMissing flag => "argument " ++ flag.shownName ++ ": expected one argument"
  | .valueIgnored flag value =>
    "argument " ++ flag.shownName ++ ": ignored explicit argument "
      ++ String.ofList (Text.literal value)
  | .ambiguous argument =>
    "ambiguous option: " ++ argument.text ++ " could match "
      ++ ", ".intercalate (argument.flags.map Flag.name)

/-! ### Reading -/

/-- Which words are still expected. -/
inductive Stage where
  /-- The key comes next. -/
  | key
  /-- The key has just been read, and the directory may follow. -/
  | directory
  /-- The directory has just been read, and a divider may follow. -/
  | divider
  /-- No word is expected. -/
  | over
deriving DecidableEq, Repr

/-- What has been read of a command line. -/
structure State where
  stage : Stage
  key : Option String
  directory : String
  noCache : Bool
  cachePlace : CachePlace
  extras : List String
deriving DecidableEq, Repr

/-- What is known before anything is read. -/
def State.start : State := ⟨.key, none, Export.standardDirectory, false, .standard, []⟩

/-- The state after something that means nothing. -/
def State.extra (s : State) (text : String) : State := { s with extras := s.extras ++ [text] }

/-- The state after an option: a key in front of it stands without directory. -/
def State.interrupt (s : State) : State :=
  match s.stage with
  | .key => s
  | _ => { s with stage := .over }

/-- The state after a word. -/
def State.word (s : State) (text : String) : State :=
  match s.stage with
  | .key => { s with stage := .directory, key := some text }
  | .directory =>
    if text = "--" then { s with stage := .divider }
    else { s with stage := .divider, directory := text }
  | _ => { s with stage := .over }.extra text

/-- The state after the divider, which says nothing beside a word that is expected. -/
def State.divider (s : State) (last : Bool) : State :=
  match s.stage with
  | .key => if last then s.extra "--" else s
  | .directory => s
  | .divider => { s with stage := .over }
  | .over => s.extra "--"

/-- The state after all tokens. -/
def readTokens (s : State) : List Token → Except Stop State
  | [] => .ok s
  | .word text :: rest => readTokens (s.word text) rest
  | .divider :: rest => readTokens (s.divider rest.isEmpty) rest
  | .unknown text :: rest => readTokens (s.interrupt.extra text) rest
  | .flag .cacheDir none :: .word text :: rest =>
    readTokens { s.interrupt with cachePlace := .directory text } rest
  | .flag .cacheDir none :: _ => .error (.valueMissing .cacheDir)
  | .flag .cacheDir (some text) :: rest =>
    readTokens { s.interrupt with cachePlace := .ofAttached text } rest
  | .flag .noCache none :: rest => readTokens { s.interrupt with noCache := true } rest
  | .flag .help none :: _ => .error .help
  | .flag flag (some text) :: _ => .error (.valueIgnored flag text)

/-- What a command line asks for. -/
def parse (arguments : List String) : Except Stop Arguments := do
  let tokens ← (Token.ofArguments arguments).mapError .ambiguous
  let s ← readTokens .start tokens
  match s.key with
  | none => throw .keyMissing
  | some key =>
    if s.extras.isEmpty then return ⟨key, s.directory, s.noCache, s.cachePlace⟩
    else throw (.unrecognized s.extras)

end Arguments

end FrameExport
