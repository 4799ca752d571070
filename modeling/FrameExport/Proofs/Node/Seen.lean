import FrameExport.Proofs.Node.Place
import FrameExport.Proofs.Page.Boxes
import FrameExport.Proofs.Style.Preorder

/-!
# What of a node is seen

`Node.seen` is a node without what the export does not look at: its name, its effects, and all paints
but the first visible ones.  `SourceNode.seen` leaves out the characters and the typography of nodes
that are no texts too, which are gone once the node is placed.

A node asks for the same styles (`Node.descriptors_seen`) and has the same box (`Node.box_seen`) as
what is seen of it, and placing does not look further either (`Node.place_map_seen`).
-/

namespace FrameExport

/-- The first visible paint is the first visible one of itself. -/
theorem Paint.firstVisible_toList (paints : List Fields) :
    firstVisible (firstVisible paints).toList = firstVisible paints := by
  cases h : firstVisible paints with
  | none => rfl
  | some paint =>
    have hvisible : isVisible paint = true := List.find?_some h
    rw [Option.toList_some, firstVisible, List.find?_singleton, hvisible]
    rfl

/-- The node without its name, its effects, its paints but the first visible ones, and without
characters and typography unless it is a text. -/
def SourceNode.seen (n : SourceNode) : SourceNode :=
  { n with
    name := ""
    fills := (Paint.firstVisible n.fills).toList
    strokes := (Paint.firstVisible n.strokes).toList
    effects := []
    characters := if n.type = textKind then n.characters else none
    style := if n.type = textKind then n.style else none }

namespace Node

variable {registry : StyleRegistry} {n : Node}

/-- The node without its name, its effects and its paints but the first visible ones. -/
def seen (n : Node) : Node :=
  { n with
    name := ""
    fills := (Paint.firstVisible n.fills).toList
    strokes := (Paint.firstVisible n.strokes).toList
    effects := [] }

/-! ### Placing -/

theorem textOf_seen (source : SourceNode) : textOf source.seen = textOf source := by
  unfold textOf
  show (if source.type = textKind then _ else _) = _
  by_cases htype : source.type = textKind
  · simp only [if_pos htype, SourceNode.seen]
  · rw [if_neg htype, if_neg htype]

theorem ofSource_seen (x y : Double) (source : SourceNode) :
    ofSource x y source.seen = (ofSource x y source).seen := by
  simp only [ofSource, textOf_seen]
  rfl

theorem place_map_seen (x y : Double) (t : Tree SourceNode) :
    place x y (t.map SourceNode.seen) = (place x y t).map seen :=
  place_map (f := SourceNode.seen) (fun _ => rfl) ofSource_seen x y t

/-! ### Styles -/

theorem fillDescriptor?_seen (n : Node) : n.seen.fillDescriptor? = n.fillDescriptor? := by
  rw [fillDescriptor?, fillDescriptor?, seen, Paint.firstVisible_toList]

theorem strokeDescriptor?_seen (n : Node) : n.seen.strokeDescriptor? = n.strokeDescriptor? := by
  have hstrokes : Paint.firstVisible n.seen.strokes = Paint.firstVisible n.strokes :=
    Paint.firstVisible_toList n.strokes
  rw [strokeDescriptor?, strokeDescriptor?, hstrokes]
  rfl

theorem descriptors_seen (n : Node) : n.seen.descriptors = n.descriptors := by
  rw [descriptors, descriptors, fillDescriptor?_seen, strokeDescriptor?_seen]
  rfl

theorem descriptorsOf_mapAll_seen (forest : List (Tree Node)) :
    descriptorsOf (Tree.mapAll seen forest) = descriptorsOf forest := by
  rw [descriptorsOf, descriptorsOf, Tree.preorderAll_mapAll, List.flatMap_map]
  simp only [descriptors_seen]

/-! ### Boxes -/

theorem areaClasses_seen (registry : StyleRegistry) (n : Node) :
    n.seen.areaClasses registry = n.areaClasses registry := by
  rw [areaClasses, areaClasses, fillClass?, fillClass?, strokeClass?, strokeClass?,
    fillDescriptor?_seen, strokeDescriptor?_seen]
  rfl

theorem textColor_seen (n : Node) : n.seen.textColor = n.textColor := by
  rw [textColor, textColor, seen, Paint.firstVisible_toList]

/-- A node has the box of what is seen of it. -/
theorem box_seen (registry : StyleRegistry) (n : Node) : n.seen.box registry = n.box registry := by
  have hparagraph : ∀ text, n.seen.paragraph text = n.paragraph text := by
    intro text
    rw [paragraph, paragraph, textColor_seen]
  have htext : n.seen.textContent? = n.textContent? := rfl
  rw [box, box, htext, areaClasses_seen]
  simp only [hparagraph]
  rfl

theorem pageSection_map_seen (registry : StyleRegistry) (root : Tree Node) :
    pageSection registry (root.map seen) = pageSection registry root :=
  pageSection_map (fun n _ => ⟨box_seen registry n, rfl⟩) rfl (areaClasses_seen registry root.value) rfl

end Node

theorem StyleRegistry.ofForest_mapAll_seen (forest : List (Tree Node)) :
    ofForest (Tree.mapAll Node.seen forest) = ofForest forest := by
  rw [ofForest, ofForest, collect_eq, collect_eq, Node.descriptorsOf_mapAll_seen]

end FrameExport
