import FrameExport.Event
import FrameExport.Files.FileTree
import FrameExport.Json.Number
import FrameExport.Rendering
import FrameExport.Text.Raw

/-!
# Sessions

A `Session` is everything that an export touches: the files, the journal, and the conversation with
the service, which consists of the replies that are still to come, the random draws that lengthen or
shorten the pauses between requests, and the requests and pauses that were made.

An `Action` is a computation that works on a session and may fail.  What was done before a failure
stays done.
-/

namespace FrameExport

/-! ### The conversation with the service -/

/-- What comes back for a request. -/
inductive Reply where
  /-- A response with its status and its text. -/
  | response (status : Int) (body : String)
  /-- No response came, for the reason that the text tells. -/
  | unreachable (message : String)
deriving DecidableEq, Repr

/-- A request to the service. -/
structure Request where
  url : String
  token : Json
  /-- How many seconds to wait for a response; null means for ever. -/
  timeout : Json
deriving Repr

/-- Why the service gives no file: a status and a text. -/
structure ServiceError where
  status : Int
  message : String
deriving DecidableEq, Repr

/-! ### Failures -/

/-- Why an export fails. -/
inductive Failure where
  | service (error : ServiceError)
  | design (error : DesignError)
  | file (error : FileError)
  /-- A text that is to be written holds half of a surrogate pair. -/
  | encoding
  /-- A value that does not come from a design cannot be used where it stands. -/
  | value (fault : Fault)
deriving DecidableEq, Repr

/-! ### Sessions -/

/-- What an export works on. -/
structure Session where
  files : FileTree
  journal : List Event
  replies : List Reply
  draws : List Double
  requests : List Request
  pauses : List Double

namespace Session

/-- A session with files, before anything is done. -/
def start (files : FileTree) (replies : List Reply) (draws : List Double) : Session :=
  ⟨files, [], replies, draws, [], []⟩

end Session

/-- A computation on a session that may fail. -/
abbrev Action := ExceptT Failure (StateM Session)

namespace Action

variable {α : Type}

/-- What an action gives, and the session after it. -/
def perform (action : Action α) (session : Session) : Except Failure α × Session :=
  StateT.run (ExceptT.run action) session

/-- The action that gives an answer or fails, and does nothing. -/
def ofExcept (answer : Except Failure α) : Action α := ExceptT.mk (pure answer)

/-- The action that fails. -/
def fail (failure : Failure) : Action α := ofExcept (.error failure)

/-- The action that gives the failure of another as an answer. -/
def attempt (action : Action α) : Action (Except Failure α) :=
  ExceptT.lift (ExceptT.run action)

/-- The action that writes reports into the journal. -/
def report (events : List Event) : Action Unit :=
  modify fun s => { s with journal := s.journal ++ events }

/-- The files as they are. -/
def files : Action FileTree := do return (← get).files

/-- The action that puts a tree in place of the files. -/
def setFiles (tree : FileTree) : Action Unit := modify fun s => { s with files := tree }

/-- The action that puts bytes into a file. -/
def writeBytes (path : Path) (content : ByteArray) : Action Unit := do
  let tree ← ofExcept (((← files).write path content).mapError .file)
  setFiles tree

/-- The action that writes a text into a file.  The file is emptied before the text is encoded, so one
that cannot be encoded leaves it empty. -/
def writeFile (path : Path) (content : RawText) : Action Unit := do
  writeBytes path .empty
  match content.encode? with
  | none => fail .encoding
  | some bytes => writeBytes path bytes

/-- The action that makes a directory and those above it. -/
def makeDirectories (path : Path) : Action Unit := do
  let (tree, answer) := (← files).makeDirectories path
  setFiles tree
  ofExcept (answer.mapError .file)

end Action

end FrameExport
