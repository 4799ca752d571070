import FrameExport.Json.Writer
import FrameExport.Node.Basic
import FrameExport.Paint

/-!
# Style descriptors

A `Descriptor` is a style that a node asks for: its typography, its fill, or its stroke with the
weight of it.  The key of a descriptor is its canonical text, so two nodes ask for the same style
exactly when their descriptors differ at most in the order of fields.

A node asks for at most one descriptor of each kind (`Node.textDescriptor?`, `Node.fillDescriptor?`,
`Node.strokeDescriptor?`).  Both the collection of styles and the choice of classes on the page go
through these.
-/

namespace FrameExport

/-- What a style is about. -/
inductive StyleKind where
  | text
  | fill
  | stroke
deriving DecidableEq, Repr

namespace StyleKind

/-- The letters that begin the names of the classes of a kind. -/
def letters : StyleKind → String
  | .text => "ts"
  | .fill => "fs"
  | .stroke => "bs"

/-- The name of the class with a number. -/
def className (kind : StyleKind) (n : Nat) : String :=
  kind.letters ++ "-" ++ String.ofList (digitsOf n)

end StyleKind

/-- A style to be named: its key, what it consists of, and the weight of a stroke. -/
structure Descriptor where
  kind : StyleKind
  key : String
  payload : Json
  weight : Json
deriving Repr

namespace Descriptor

/-- The descriptor of a typography. -/
def text (style : Json) : Descriptor := ⟨.text, style.canonical, style, .null⟩

/-- The descriptor of a fill. -/
def fill (paint : Fields) : Descriptor := ⟨.fill, (Json.obj paint).canonical, .obj paint, .null⟩

/-- The descriptor of a stroke, whose key holds the weight too. -/
def stroke (paint : Fields) (weight : Double) : Descriptor where
  kind := .stroke
  key := (Json.obj [("strokePaint", .obj paint), ("w", .double weight)]).canonical
  payload := .obj paint
  weight := .double weight

end Descriptor

namespace Node

/-- The typography of a text node, even an empty one. -/
def textDescriptor? (node : Node) : Option Descriptor :=
  node.textContent?.map fun text => .text (.obj text.style)

/-- The first visible fill. -/
def fillDescriptor? (node : Node) : Option Descriptor := (Paint.firstVisible node.fills).map .fill

/-- The weight of the stroke of a node, unless there is none or it is zero. -/
def visibleWeight? (node : Node) : Option Double := node.strokeWeight.filter fun w => !w.isZero

/-- The first visible stroke, if it has a weight. -/
def strokeDescriptor? (node : Node) : Option Descriptor := do
  return .stroke (← Paint.firstVisible node.strokes) (← node.visibleWeight?)

end Node

end FrameExport
