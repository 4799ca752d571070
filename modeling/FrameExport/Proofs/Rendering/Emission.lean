import FrameExport.Proofs.Page.Boxes
import FrameExport.Proofs.Paint.Reordered
import FrameExport.Proofs.Paint.Usable
import FrameExport.Proofs.Style.Collection
import FrameExport.Proofs.Tree

/-!
# When the style sheet and the page can be made

`Node.Usable` says which values of a node have to be usable: the stops of its first visible fill
whatever its type, the colour of that fill if it is solid, and the colour of its first visible
stroke if that is solid and has a weight.  Hidden paints and strokes without weight are not read.

`returns_sheet_and_page_iff` is the headline: the style sheet and the page of a forest can both be
made exactly if every node is usable, those below a text included.  The style sheet looks at more
than the page does, so a page can be made wherever a style sheet can.
-/

namespace FrameExport

open Paint (StopsUsable SolidUsable isSolid firstVisible)

/-- What is looked at in a node can be used. -/
structure Node.Usable (node : Node) : Prop where
  stops : ∀ paint, firstVisible node.fills = some paint → StopsUsable paint
  fill : ∀ paint, firstVisible node.fills = some paint → isSolid paint = true → SolidUsable paint
  stroke : ∀ paint weight, firstVisible node.strokes = some paint →
    node.strokeWeight = some weight → weight.isZero = false → isSolid paint = true →
      SolidUsable paint

namespace Node

variable {n : Node} {registry : StyleRegistry}

theorem visibleWeight?_eq_some_iff {weight : Double} :
    n.visibleWeight? = some weight ↔ n.strokeWeight = some weight ∧ weight.isZero = false := by
  rw [visibleWeight?, Option.filter_eq_some_iff, Bool.not_eq_true']

/-- The fill of a node can be written. -/
def FillReturns (n : Node) : Prop :=
  ∀ d, n.descriptor? .fill = some d → Returns (Stylesheet.fillDeclaration d.payload)

/-- The stroke of a node can be written. -/
def StrokeReturns (n : Node) : Prop :=
  ∀ d, n.descriptor? .stroke = some d → Returns (Stylesheet.strokeDeclaration d.payload d.weight)

theorem fillReturns_iff :
    n.FillReturns ↔ ∀ paint, firstVisible n.fills = some paint →
      StopsUsable paint ∧ (isSolid paint = true → SolidUsable paint) := by
  constructor
  · intro h paint hpaint
    have hd : n.descriptor? .fill = some (.fill paint) := by
      rw [descriptor?, fillDescriptor?, hpaint]
      rfl
    exact Stylesheet.returns_fillDeclaration_iff.mp (h _ hd)
  · intro h d hd
    obtain ⟨paint, hpaint, rfl⟩ := Option.map_eq_some_iff.mp hd
    exact Stylesheet.returns_fillDeclaration_iff.mpr (h paint hpaint)

theorem strokeReturns_iff :
    n.StrokeReturns ↔ ∀ paint weight, firstVisible n.strokes = some paint →
      n.strokeWeight = some weight → weight.isZero = false → isSolid paint = true →
        SolidUsable paint := by
  constructor
  · intro h paint weight hpaint hweight hzero
    have hd : n.descriptor? .stroke = some (.stroke paint weight) :=
      mem_strokeDescriptor?.mpr
        ⟨paint, weight, hpaint, visibleWeight?_eq_some_iff.mpr ⟨hweight, hzero⟩, rfl⟩
    exact Stylesheet.returns_strokeDeclaration_iff.mp (h _ hd)
  · intro h d hd
    obtain ⟨paint, weight, hpaint, hvisible, rfl⟩ := mem_strokeDescriptor?.mp hd
    obtain ⟨hweight, hzero⟩ := visibleWeight?_eq_some_iff.mp hvisible
    exact Stylesheet.returns_strokeDeclaration_iff.mpr (h paint weight hpaint hweight hzero)

theorem usable_iff : n.Usable ↔ n.FillReturns ∧ n.StrokeReturns := by
  rw [fillReturns_iff, strokeReturns_iff]
  constructor
  · rintro ⟨hstops, hfill, hstroke⟩
    exact ⟨fun paint hpaint => ⟨hstops paint hpaint, hfill paint hpaint⟩, hstroke⟩
  · rintro ⟨hfill, hstroke⟩
    exact ⟨fun paint hpaint => (hfill paint hpaint).1, fun paint hpaint => (hfill paint hpaint).2,
      hstroke⟩

end Node

namespace Stylesheet

variable {registry : StyleRegistry} {forest : List (Tree Node)}

/-! ### The style sheet -/

theorem returns_ofRegistry_iff :
    Returns (ofRegistry registry)
      ↔ (∀ entry ∈ registry.texts.entries, Returns (textRule entry))
        ∧ (∀ entry ∈ registry.fills.entries, Returns (fillDeclaration entry.payload))
        ∧ ∀ entry ∈ registry.strokes.entries,
          Returns (strokeDeclaration entry.payload entry.weight) := by
  have hfill : ∀ entry, Returns (fillRule entry) ↔ Returns (fillDeclaration entry.payload) :=
    fun _ => returns_bind_of_returns fun _ => returns_pure _
  have hstroke : ∀ entry, Returns (strokeRule entry)
      ↔ Returns (strokeDeclaration entry.payload entry.weight) :=
    fun _ => returns_bind_of_returns fun _ => returns_pure _
  simp only [← hfill, ← hstroke]
  rw [← returns_mapM_iff, ← returns_mapM_iff, ← returns_mapM_iff, ofRegistry]
  constructor
  · intro h
    obtain ⟨texts, htexts, h⟩ := returns_bind_iff.mp h
    obtain ⟨fills, hfills, h⟩ := returns_bind_iff.mp h
    obtain ⟨strokes, hstrokes, -⟩ := returns_bind_iff.mp h
    exact ⟨⟨texts, htexts⟩, ⟨fills, hfills⟩, strokes, hstrokes⟩
  · rintro ⟨⟨texts, htexts⟩, ⟨fills, hfills⟩, strokes, hstrokes⟩
    exact returns_bind_iff.mpr ⟨texts, htexts, returns_bind_iff.mpr ⟨fills, hfills,
      returns_bind_iff.mpr ⟨strokes, hstrokes, returns_pure _⟩⟩⟩

/-- The payload of a text style is always an object. -/
theorem returns_textRule {entry : StyleEntry}
    (h : entry ∈ ((StyleRegistry.ofForest forest).table .text).entries) :
    Returns (textRule entry) := by
  obtain ⟨i, d, hi, rfl⟩ := StyleRegistry.mem_entries_ofForest.mp h
  obtain ⟨n, -, hd⟩ := StyleRegistry.exists_node_of_mem (List.mem_of_getElem? hi)
  obtain ⟨text, -, rfl⟩ := Option.map_eq_some_iff.mp hd
  exact returns_ok _

/-- The style sheet of the registry of a forest can be made exactly if every node is usable: an
entry stands for all nodes that ask for it, and reordered paints are written in the same way. -/
theorem returns_ofForest_iff :
    Returns (ofRegistry (.ofForest forest)) ↔ ∀ n ∈ Tree.preorderAll forest, n.Usable := by
  -- what the entries need is what the nodes need, as reordered paints are written alike
  have hfills := StyleRegistry.forall_entries_iff .fill forest
    (P := fun p _ => Returns (fillDeclaration p)) fun p q _ hpq => by rw [fillDeclaration_eq hpq]
  have hstrokes := StyleRegistry.forall_entries_iff .stroke forest
    (P := fun p weight => Returns (strokeDeclaration p weight))
    fun p q weight hpq => by rw [strokeDeclaration_eq hpq]
  rw [returns_ofRegistry_iff]
  constructor
  · rintro ⟨-, hfill, hstroke⟩ n hn
    exact Node.usable_iff.mpr ⟨hfills.mp hfill n hn, hstrokes.mp hstroke n hn⟩
  · intro h
    refine ⟨fun entry hentry => returns_textRule hentry, hfills.mpr ?_, hstrokes.mpr ?_⟩
    · intro n hn
      exact (Node.usable_iff.mp (h n hn)).1
    · intro n hn
      exact (Node.usable_iff.mp (h n hn)).2

end Stylesheet

namespace Node

variable {n : Node} {registry : StyleRegistry}

/-! ### The page -/

theorem returns_pageSection {root : Tree Node} (h : ∀ n ∈ root.preorder, n.Usable) :
    Returns (pageSection registry root) := by
  obtain ⟨node, children⟩ := root
  rw [Tree.preorder, List.forall_mem_cons] at h
  apply (returns_bind_of_returns fun _ => returns_pure _).mpr
  rw [returns_boxesAll_iff]
  intro n hn
  -- the style sheet has looked at the fill that colours a text
  rw [returns_box_iff, returns_textColor_iff]
  exact fun _ => (h.2 n (mem_preorderAll_of_mem_shownAll hn)).fill

end Node

namespace Page

variable {forest : List (Tree Node)}

/-- The page of a forest can be made, with whatever registry, if every node is usable. -/
theorem returns_ofForest (title : String) (registry : StyleRegistry)
    (h : ∀ n ∈ Tree.preorderAll forest, n.Usable) :
    Returns (ofForest title registry forest) := by
  apply (returns_bind_of_returns fun _ => returns_pure _).mpr
  rw [returns_mapM_iff]
  intro root hroot
  exact Node.returns_pageSection fun n hn => h n (Tree.mem_preorderAll_of_mem hroot hn)

end Page

/-- **The style sheet and the page can both be made exactly if every node is usable**, and the page
can be made wherever the style sheet can. -/
theorem returns_sheet_and_page_iff (title : String) (forest : List (Tree Node)) :
    ((∃ sheet, Stylesheet.ofRegistry (.ofForest forest) = .ok sheet)
          ∧ (∃ page, Page.ofForest title (.ofForest forest) forest = .ok page)
        ↔ ∀ n ∈ Tree.preorderAll forest, n.Usable)
      ∧ ((∃ sheet, Stylesheet.ofRegistry (.ofForest forest) = .ok sheet) →
        ∃ page, Page.ofForest title (.ofForest forest) forest = .ok page) := by
  have hsheet : (∃ sheet, Stylesheet.ofRegistry (.ofForest forest) = .ok sheet)
      ↔ ∀ n ∈ Tree.preorderAll forest, n.Usable := Stylesheet.returns_ofForest_iff
  have hpage : (∀ n ∈ Tree.preorderAll forest, n.Usable) →
      ∃ page, Page.ofForest title (.ofForest forest) forest = .ok page :=
    Page.returns_ofForest title _
  constructor
  · constructor
    · rintro ⟨h, -⟩
      exact hsheet.mp h
    · intro h
      exact ⟨hsheet.mpr h, hpage h⟩
  · intro h
    exact hpage (hsheet.mp h)

end FrameExport
