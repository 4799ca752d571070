import FrameExport.Checked
import FrameExport.Json.Number
import FrameExport.Tree

/-!
# Nodes as a design file holds them

`SourceNode.read` reads a tree of nodes from JSON.  Every field may be absent, and unknown fields
are passed over; what is present must have the right kind.  All faults of the whole tree are
counted, and the tree counts only when there is none.

Positions stay absolute here: the box of a node has its corner in the coordinates of the canvas.
-/

namespace FrameExport

/-- The kind of a node that can be the frame to export. -/
def frameKind : String := "FRAME"

/-- The kind of a node that holds characters. -/
def textKind : String := "TEXT"

/-- A rectangle in the coordinates of the canvas. -/
structure Bounds where
  x : Double
  y : Double
  width : Double
  height : Double
deriving DecidableEq, Repr

namespace Bounds

/-- The rectangle of a node that has none: nothing, at the origin. -/
def empty : Bounds := ⟨.zero, .zero, .zero, .zero⟩

end Bounds

/-- A node of a design file without its children. -/
structure SourceNode where
  id : String
  name : String
  type : String
  bounds : Option Bounds
  fills : List Fields
  strokes : List Fields
  strokeWeight : Option Double
  effects : List Fields
  opacity : Option Double
  cornerRadius : Option Double
  cornerRadii : Option (List Double)
  characters : Option String
  style : Option Fields
deriving Repr

namespace SourceNode

/-- The node of which nothing is said. -/
def blank : SourceNode where
  id := ""
  name := ""
  type := ""
  bounds := none
  fills := []
  strokes := []
  strokeWeight := none
  effects := []
  opacity := none
  cornerRadius := none
  cornerRadii := none
  characters := none
  style := none

/-! ### Reading values -/

/-- A number field takes numbers, truth values as one and zero, and texts that hold a numeral in
ASCII digits; an integer beyond every double is a fault. -/
def number? : Json → Option Double
  | .int n => Double.ofInt? n
  | .double x => some x
  | .bool b => some (if b then .one else .zero)
  | .str s => Numeral.readField s
  | _ => none

/-- A value that must be a number. -/
def readNumber (v : Json) : Checked Double := .ofOption .zero (number? v)

/-- A field that takes a value or null. -/
def readOptional {α : Type} (read : Json → Checked α) : Json → Checked (Option α)
  | .null => .sound none
  | v => some <$> read v

/-- A value that must be a text. -/
def readText : Json → Checked String
  | .str s => .sound s
  | _ => .faulty ""

/-- A text field, in which null stands for the empty text. -/
def readName : Json → Checked String
  | .null => .sound ""
  | v => readText v

/-- A value that must be an object. -/
def readObject : Json → Checked Fields
  | .obj fields => .sound fields
  | _ => .faulty []

/-- A field that takes an array, in which null stands for the empty one. -/
def readList {α : Type} (read : Json → Checked α) : Json → Checked (List α)
  | .null => .sound []
  | .arr items => .all (items.map read)
  | _ => .faulty []

/-- A value that must be an array. -/
def readItems {α : Type} (read : Json → Checked α) : Json → Checked (List α)
  | .arr items => .all (items.map read)
  | _ => .faulty []

/-- A side or corner of a box: zero when it is absent, but never null. -/
def readExtent (fields : Fields) (key : String) : Checked Double :=
  match fields.lookup key with
  | none => .sound .zero
  | some v => readNumber v

/-- The box of a node. -/
def readBounds : Json → Checked Bounds
  | .obj fields =>
    Bounds.mk <$> readExtent fields "x" <*> readExtent fields "y" <*> readExtent fields "width"
      <*> readExtent fields "height"
  | _ => .faulty .empty

/-! ### Reading nodes -/

/-- A node without its children. -/
def readFields (fields : Fields) : Checked SourceNode :=
  SourceNode.mk
    <$> readName (fields.get "id")
    <*> readName (fields.get "name")
    <*> readName (fields.get "type")
    <*> readOptional readBounds (fields.get "absoluteBoundingBox")
    <*> readList readObject (fields.get "fills")
    <*> readList readObject (fields.get "strokes")
    <*> readOptional readNumber (fields.get "strokeWeight")
    <*> readList readObject (fields.get "effects")
    <*> readOptional readNumber (fields.get "opacity")
    <*> readOptional readNumber (fields.get "cornerRadius")
    <*> readOptional (readItems readNumber) (fields.get "rectangleCornerRadii")
    <*> readOptional readText (fields.get "characters")
    <*> readOptional readObject (fields.get "style")

/-- How many levels of nodes may lie in each other. -/
def maxLevels : Nat := 255

/-- A tree of nodes that has at most the given number of levels; anything that is no object, and
everything below the last level, is one fault. -/
def readLevels : (levels : Nat) → Json → Checked (Tree SourceNode)
  | levels + 1, .obj fields =>
    Tree.node <$> readFields fields <*> readList (readLevels levels) (Fields.get fields "children")
  | _, _ => .faulty (.leaf blank)

/-- The tree of nodes that a value holds, or the number of its faults. -/
def read (v : Json) : Except Nat (Tree SourceNode) := (readLevels maxLevels v).toExcept

/-- Where the coordinates of the children of a node begin: at the corner of its box, and at zero
when it has none. -/
def origin (node : SourceNode) : Double × Double :=
  let box := node.bounds.getD .empty
  (box.x, box.y)

end SourceNode

end FrameExport
