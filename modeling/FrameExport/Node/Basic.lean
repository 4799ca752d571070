import FrameExport.Double.Arithmetic
import FrameExport.Node.Source

/-!
# Placed nodes

A `Node` says where it lies relative to its parent, and what of its looks the file leaves open is
filled in.  `Node.place` turns the tree of a file into a tree of placed nodes of the same shape:
each node is placed against the box of its immediate parent, and a parent without box counts as
lying at zero.
-/

namespace FrameExport

/-- The characters of a text node and their typography. -/
structure TextContent where
  characters : String
  style : Fields
deriving Repr

/-- The radii of the four corners. -/
structure CornerRadii where
  topLeft : Double
  topRight : Double
  bottomRight : Double
  bottomLeft : Double
deriving DecidableEq, Repr

namespace CornerRadii

/-- The first four of a list of radii; those that are missing are zero. -/
def ofList (radii : List Double) : CornerRadii where
  topLeft := radii[0]?.getD .zero
  topRight := radii[1]?.getD .zero
  bottomRight := radii[2]?.getD .zero
  bottomLeft := radii[3]?.getD .zero

/-- The four radii, clockwise from the top left. -/
def toList (radii : CornerRadii) : List Double :=
  [radii.topLeft, radii.topRight, radii.bottomRight, radii.bottomLeft]

end CornerRadii

/-- A node placed relative to its parent, without its children. -/
structure Node where
  id : String
  name : String
  type : String
  x : Double
  y : Double
  width : Double
  height : Double
  fills : List Fields
  strokes : List Fields
  strokeWeight : Option Double
  effects : List Fields
  opacity : Double
  cornerRadius : Option Double
  cornerRadii : Option CornerRadii
  text : Option TextContent
deriving Repr

namespace Node

/-- The characters of a node of the kind that holds some. -/
def textContent? (node : Node) : Option TextContent :=
  if node.type = textKind then node.text else none

/-- Whether a node holds characters. -/
def isText (node : Node) : Bool := node.textContent?.isSome

/-- What a node of the file holds as text: its characters and style if its kind has them. -/
def textOf (source : SourceNode) : Option TextContent :=
  if source.type = textKind then some ⟨source.characters.getD "", source.style.getD []⟩ else none

/-- A node of the file as seen from the point `(x, y)`. -/
def ofSource (x y : Double) (source : SourceNode) : Node :=
  let box := source.bounds.getD .empty
  { id := source.id
    name := source.name
    type := source.type
    x := box.x - x
    y := box.y - y
    width := box.width
    height := box.height
    fills := source.fills
    strokes := source.strokes
    strokeWeight := source.strokeWeight
    effects := source.effects
    opacity := source.opacity.getD .one
    cornerRadius := source.cornerRadius
    cornerRadii := source.cornerRadii.map .ofList
    text := textOf source }

mutual

/-- The tree of a file as seen from the point `(x, y)`: every node below the root is seen from the
corner of its parent's box. -/
def place (x y : Double) : Tree SourceNode → Tree Node
  | .node source children =>
    .node (ofSource x y source) (placeAll source.origin.1 source.origin.2 children)

/-- Several trees as seen from the same point. -/
def placeAll (x y : Double) : List (Tree SourceNode) → List (Tree Node)
  | [] => []
  | t :: ts => place x y t :: placeAll x y ts

end

end Node

end FrameExport
