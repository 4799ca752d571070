import FrameExport.Stylesheet.Basic

/-!
# Pages

A `Page` is what a browser is told to show, as data: a title and one section for every root, each
with a tree of boxes.  A box has an identifier, classes and declarations of its own, and the box of
a text has a paragraph with its characters.  Boxes below a text are not shown.

`Page.ofForest` makes the page.  The classes of a box are looked up in the registry, so the page and
the style sheet of one registry belong together.  The colour of a text comes from a paint that
nobody has checked, so making a page can fault.
-/

namespace FrameExport

/-- The characters of a text with the declarations that hold for them. -/
structure Paragraph where
  style : List Declaration
  characters : String
deriving DecidableEq, Repr

/-- A box on the page, without the boxes in it. -/
structure Box where
  id : String
  classes : List String
  style : List Declaration
  paragraph : Option Paragraph
deriving DecidableEq, Repr

/-- A root of the design with the boxes in it. -/
structure Section where
  id : String
  classes : List String
  style : List Declaration
  boxes : List (Tree Box)
deriving Repr

/-- What a browser is told to show. -/
structure Page where
  title : String
  sections : List Section
deriving Repr

namespace Node

/-- A double as a length in pixels. -/
def pixels (x : Double) : String := Typography.pixels (.double x)

/-! ### Declarations -/

/-- The radius of all corners, and after it those of the four corners, which win. -/
def radiusDeclarations (node : Node) : List Declaration :=
  (node.cornerRadius.map fun r => ⟨"border-radius", pixels r⟩).toList
    ++ (node.cornerRadii.map fun rs =>
        ⟨"border-radius", " ".intercalate (rs.toList.map pixels)⟩).toList

/-- The opacity, unless it is one. -/
def opacityDeclarations (node : Node) : List Declaration :=
  if node.opacity = .one then [] else [⟨"opacity", String.ofList node.opacity.writePlain⟩]

/-- Where a box lies, how large it is and what it looks like. -/
def boxDeclarations (node : Node) : List Declaration :=
  [⟨"left", pixels node.x⟩, ⟨"top", pixels node.y⟩, ⟨"width", pixels node.width⟩,
    ⟨"height", pixels node.height⟩] ++ node.opacityDeclarations ++ node.radiusDeclarations

/-- What centres the paragraph of a text in its box. -/
def centring : List Declaration :=
  [⟨"display", "flex"⟩, ⟨"align-items", "center"⟩, ⟨"justify-content", "flex-start"⟩]

/-- The size of a section, and its corners, at which it is cut off. -/
def sectionDeclarations (node : Node) : List Declaration :=
  [⟨"width", pixels node.width⟩, ⟨"height", pixels node.height⟩, ⟨"position", "relative"⟩]
    ++ (match node.radiusDeclarations with
      | [] => []
      | radius => radius ++ [⟨"overflow", "hidden"⟩])

/-- The colour of a text: that of its first visible fill, if it is a solid one. -/
def textColor (node : Node) : Except Fault String :=
  match Paint.firstVisible node.fills with
  | some paint =>
    if Paint.isSolid paint then (Paint.color (.obj paint)).map Color.text else .ok "#333333"
  | none => .ok "#333333"

/-- The paragraph of a text. -/
def paragraph (node : Node) (text : TextContent) : Except Fault Paragraph := do
  let color ← node.textColor
  return {
    style := [⟨"margin", "0"⟩, ⟨"width", "100%"⟩, ⟨"white-space", "pre-wrap"⟩,
        ⟨"text-align", Typography.alignment (text.style.get "textAlignHorizontal")⟩,
        ⟨"color", color⟩]
      ++ Typography.metrics text.style
    characters := text.characters }

/-! ### Classes -/

/-- The class of the fill of a node; a text has none, its fill colours the characters. -/
def fillClass? (registry : StyleRegistry) (node : Node) : Option String :=
  if node.type = textKind then none else node.fillDescriptor?.bind registry.classOf?

/-- The class of the stroke of a node. -/
def strokeClass? (registry : StyleRegistry) (node : Node) : Option String :=
  node.strokeDescriptor?.bind registry.classOf?

/-- The class of the typography of a node. -/
def textClass? (registry : StyleRegistry) (node : Node) : Option String :=
  node.textDescriptor?.bind registry.classOf?

/-- The classes of the styles of an area. -/
def areaClasses (registry : StyleRegistry) (node : Node) : List String :=
  (node.fillClass? registry).toList ++ (node.strokeClass? registry).toList

/-! ### Boxes -/

/-- The box of a node. -/
def box (registry : StyleRegistry) (node : Node) : Except Fault Box :=
  match node.textContent? with
  | some text => do
    return {
      id := node.id
      classes := "node" :: (node.areaClasses registry ++ (node.textClass? registry).toList)
      style := node.boxDeclarations ++ centring
      paragraph := some (← node.paragraph text) }
  | none =>
    .ok {
      id := node.id
      classes := "node" :: node.areaClasses registry
      style := node.boxDeclarations
      paragraph := none }

mutual

/-- The boxes of a tree; nothing below a text is shown. -/
def boxes (registry : StyleRegistry) : Tree Node → Except Fault (Tree Box)
  | .node node children => do
    let box ← node.box registry
    if node.isText then return .leaf box
    else return .node box (← boxesAll registry children)

/-- The boxes of several trees. -/
def boxesAll (registry : StyleRegistry) : List (Tree Node) → Except Fault (List (Tree Box))
  | [] => .ok []
  | t :: ts => do
    let first ← boxes registry t
    return first :: (← boxesAll registry ts)

end

/-- The section of a root. -/
def pageSection (registry : StyleRegistry) (root : Tree Node) : Except Fault Section := do
  return {
    id := root.value.id
    classes := "page" :: root.value.areaClasses registry
    style := root.value.sectionDeclarations
    boxes := ← boxesAll registry root.children }

end Node

namespace Page

/-- The title of a page that is given none. -/
def defaultTitle : String := "Figma Export"

/-- The page of a forest. -/
def ofForest (title : String) (registry : StyleRegistry) (forest : List (Tree Node)) :
    Except Fault Page := do
  return ⟨title, ← forest.mapM (Node.pageSection registry)⟩

end Page

end FrameExport
