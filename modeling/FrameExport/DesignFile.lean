import FrameExport.Json.Literal
import FrameExport.Node.Basic

/-!
# Design files

A design file is an object with a document, whose first page holds the frame to export: the first of
its members that is a frame and has the word "frame" in its name.  Only that frame is checked; other
pages and the siblings of the frame may be anything.

`DesignFile.frame` finds and checks the frame, and `DesignFile.root` places it, with its corner at
zero.
-/

namespace FrameExport

/-- What is wrong with a file that cannot be exported. -/
inductive StructureError where
  /-- There is no document in the file. -/
  | noDocument
  /-- The file itself has faults. -/
  | invalidFile (faults : Nat)
  /-- The document has no pages. -/
  | noPages
  /-- No member of the first page is the frame to export. -/
  | noMainFrame
  /-- The nodes of the frame have faults. -/
  | invalidNode (faults : Nat)
deriving DecidableEq, Repr

/-- The text that tells what is wrong. -/
def StructureError.message : StructureError → String
  | .noDocument => "Fil-JSON saknar 'document'."
  | .invalidFile faults =>
    "Ogiltigt dokument: " ++ String.ofList (digitsOf faults) ++ " valideringsfel"
  | .noPages => "Dokumentet saknar sidor."
  | .noMainFrame => "No main FRAME found."
  | .invalidNode faults =>
    "Ogiltig nod i dokumentet: " ++ String.ofList (digitsOf faults) ++ " valideringsfel"

/-- Why a design cannot be rendered: its structure is wrong, or a value in it cannot be used. -/
inductive DesignError where
  | structural (error : StructureError)
  | fault (fault : Fault)
deriving DecidableEq, Repr

namespace SourceNode

/-- The tree of nodes that a value holds; faults make the structure wrong. -/
def readTree (v : Json) : Except StructureError (Tree SourceNode) :=
  (read v).mapError .invalidNode

end SourceNode

/-- A design file as far as the export looks at it. -/
structure DesignFile where
  name : Option String
  document : Fields
deriving Repr

namespace DesignFile

/-! ### The file -/

/-- The file that a value holds; its name must be a text, if there is one. -/
def check : Json → Checked DesignFile
  | .obj fields =>
    DesignFile.mk <$> SourceNode.readOptional SourceNode.readText (Fields.get fields "name")
      <*> SourceNode.readObject (Fields.get fields "document")
  | _ => .faulty ⟨none, []⟩

/-- The file that a value holds, which must have a document. -/
def read (v : Json) : Except StructureError DesignFile :=
  match v.fieldsOrEmpty.get "document" with
  | .obj _ => (check v).toExcept.mapError .invalidFile
  | _ => .error .noDocument

/-! ### The frame -/

/-- Whether a word stands somewhere in a text. -/
def contains (word : List Char) : List Char → Bool
  | [] => word.isEmpty
  | c :: cs => word.isPrefixOf (c :: cs) || contains word cs

/-- Whether the name of a node has the word "frame" in it, in letters of either case.  A name that
is no text is taken as running text shows it. -/
def isFrameName (name : Json) : Bool :=
  name.isTruthy && contains "frame".toList (Text.asciiLower name.shown)

/-- Whether a member of a page is the kind of frame that is exported. -/
def isMainFrame (member : Json) : Bool :=
  match member with
  | .obj fields =>
    (Fields.get fields "type").isText frameKind && isFrameName (Fields.get fields "name")
  | _ => false

/-- The frame to export: the first fitting member of the first page. -/
def mainFrame (document : Fields) : Except DesignError Json :=
  match document.get "children" with
  | .arr (page :: _) =>
    match (page.fieldsOrEmpty.get "children").walk with
    | .error fault => .error (.fault fault)
    | .ok members =>
      match members.find? isMainFrame with
      | some frame => .ok frame
      | none => .error (.structural .noMainFrame)
  | _ => .error (.structural .noPages)

/-- The frame to export of a value that should be a document. -/
def mainFrameIn (document : Json) : Except DesignError Json :=
  match document with
  | .obj fields => mainFrame fields
  | v => .error (.fault (.noAttribute v.kind "get"))

/-- The tree of the frame to export. -/
def frame (file : DesignFile) : Except DesignError (Tree SourceNode) := do
  (SourceNode.readTree (← mainFrame file.document)).mapError .structural

/-- The frame seen from its own corner. -/
def root (frame : Tree SourceNode) : Tree Node :=
  Node.place frame.value.origin.1 frame.value.origin.2 frame

/-- The placed frame of the file that a value holds. -/
def rootIn (v : Json) : Except DesignError (Tree Node) := do
  return root (← (← (read v).mapError .structural).frame)

/-! ### The trace -/

/-- The two lines that report the building of a frame: what it starts from, and the size it has. -/
def trace (frame : Tree SourceNode) : List String :=
  let node := frame.value
  let placed := (root frame).value
  let line (event : String) (values : Fields) : String :=
    "[figma_ir] " ++ event ++ " " ++ (Json.obj values).spaced
  [line "ir.build.start"
      [("frame_id", .str node.id), ("frame_name", .str node.name),
        ("origin", .arr [.double node.origin.1, .double node.origin.2])],
    line "ir.build.done"
      [("frame_id", .str node.id), ("w", .double placed.width), ("h", .double placed.height)]]

end DesignFile

end FrameExport
