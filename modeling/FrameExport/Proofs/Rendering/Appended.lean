import FrameExport.Proofs.Json.Fields
import FrameExport.Proofs.MainFrame
import FrameExport.Proofs.Rendering.Appearance
import FrameExport.Proofs.Style.Appended

/-!
# Nodes behind the last child of a frame

Nodes that are appended to the children of a frame change nothing of what is there already
(`Rendering.extends_of_appendChildren`): the tables of the registry get new entries at their ends, the
rules of the style sheet stay as they are and in order, and the page stays the same up to the end of
the section, where the new boxes stand.
-/

namespace FrameExport

/-! ### Frames -/

/-- A frame with further nodes behind its last child. -/
def Fields.appendChildren (more : List Json) (frame : Fields) : Fields :=
  frame.put "children" (.arr ((frame.get "children").items?.getD [] ++ more))

namespace SourceNode

open Fields (appendChildren)

variable {frame : Fields} {more : List Json} {tree tree' : Tree SourceNode}

theorem readFields_appendChildren (more : List Json) (frame : Fields) :
    readFields (appendChildren more frame) = readFields frame := by
  simp [readFields, appendChildren, Fields.get_put]

theorem readLevels_succ (levels : Nat) (fields : Fields) :
    readLevels (levels + 1) (.obj fields)
      = Tree.node <$> readFields fields <*> readList (readLevels levels) (fields.get "children") :=
  rfl

theorem value_readList {α : Type} (read : Json → Checked α) (v : Json) :
    (readList read v).value = (v.items?.getD []).map fun item => (read item).value := by
  cases v with
  | arr items =>
    show (Checked.all (items.map read)).value = _
    rw [Checked.value_all, List.map_map]
    rfl
  | _ => rfl

/-- A tree that is read from an object has the node of its fields and the trees of its children. -/
theorem eq_of_readTree_obj (h : readTree (.obj frame) = .ok tree) :
    tree = .node (readFields frame).value (((frame.get "children").items?.getD []).map fun item =>
      (readLevels 254 item).value) := by
  have hlevels : maxLevels = 254 + 1 := rfl
  rw [readTree, mapError_eq_ok_iff, SourceNode.read, Checked.toExcept_eq_ok_iff, hlevels,
    readLevels_succ] at h
  rw [← h.2, Checked.value_seq, Checked.value_map, value_readList]

/-- The tree with further nodes has further trees behind its children. -/
theorem exists_of_readTree_appendChildren (h : readTree (.obj frame) = .ok tree)
    (h' : readTree (.obj (appendChildren more frame)) = .ok tree') :
    ∃ source children added, tree = .node source children
      ∧ tree' = .node source (children ++ added) := by
  have hchildren : (appendChildren more frame).get "children"
      = .arr ((frame.get "children").items?.getD [] ++ more) := by
    rw [appendChildren, Fields.get_put, if_pos rfl]
  have htree' := eq_of_readTree_obj h'
  rw [readFields_appendChildren, hchildren, Json.items?, Option.getD_some, List.map_append] at htree'
  exact ⟨_, _, _, eq_of_readTree_obj h, htree'⟩

end SourceNode

/-! ### Text -/

theorem Box.writeAll_append (depth : Nat) (ts us : List (Tree Box)) :
    Box.writeAll depth (ts ++ us) = Box.writeAll depth ts ++ Box.writeAll depth us := by
  induction ts with
  | nil => rfl
  | cons t ts ih => rw [List.cons_append, writeAll, writeAll, ih, List.append_assoc]

/-- The opening tag of a section. -/
def Section.openTag (s : Section) : List Char :=
  "<section class=\"".toList ++ writeClasses s.classes
    ++ "\" id=\"page-".toList ++ Markup.escapeQuoted s.id
    ++ "\" style=\"".toList ++ Declaration.writeAll s.style ++ "\">\n".toList

theorem Section.write_eq (s : Section) :
    s.write = s.openTag ++ Box.writeAll 1 s.boxes ++ "</section>".toList := rfl

namespace Page

/-- What stands on a page in front of the boxes of its only section. -/
def beforeBoxes (title : String) (s : Section) : List Char :=
  opening ++ Markup.escape title ++ afterTitle ++ s.openTag

/-- What stands on a page behind the boxes of its last section. -/
def afterBoxes : List Char := "</section>".toList ++ closing

theorem write_singleton (title : String) (s : Section) :
    write ⟨title, [s]⟩ = beforeBoxes title s ++ Box.writeAll 1 s.boxes ++ afterBoxes := by
  have hwrite : write ⟨title, [s]⟩
      = opening ++ Markup.escape title ++ afterTitle ++ s.write ++ closing := by
    unfold write
    simp only [List.map_cons, List.map_nil, List.intercalate_singleton]
  unfold beforeBoxes afterBoxes
  rw [hwrite, Section.write_eq]
  simp only [List.append_assoc]

end Page

namespace Rendering

/-- A rendering that has all that another one has, and more at the ends: the entries of each table,
the rules of the style sheet in their order, and the boxes of the one section, which are written in
the same way. -/
structure Extends (later rendering : Rendering) : Prop where
  prefix_entries : ∀ kind,
    (rendering.registry.table kind).entries <+: (later.registry.table kind).entries
  rules_sublist : rendering.sheet.rules.Sublist later.sheet.rules
  exists_section : ∃ s added, rendering.page.sections = [s]
    ∧ later.page.sections = [{ s with boxes := s.boxes ++ added }]
    ∧ ∃ before, rendering.html = String.ofList (before ++ Page.afterBoxes)
      ∧ later.html = String.ofList (before ++ Box.writeAll 1 added ++ Page.afterBoxes)

variable {file file' : Json} {frame : Fields} {more : List Json} {rendering later : Rendering}

/-- The page of a rendering is written around the boxes of its section. -/
theorem html_eq {s : Section} (h : ofJson file = .ok rendering)
    (hsections : rendering.page.sections = [s]) :
    rendering.html = String.ofList
      (Page.beforeBoxes Page.defaultTitle s ++ Box.writeAll 1 s.boxes ++ Page.afterBoxes) := by
  obtain ⟨root, -, h⟩ := bind_eq_ok_iff.mp h
  obtain ⟨sheet, -, h⟩ := bind_eq_ok_iff.mp (mapError_eq_ok_iff.mp h)
  obtain ⟨page, hpage, h⟩ := bind_eq_ok_iff.mp h
  obtain ⟨sections, -, hpage⟩ := bind_eq_ok_iff.mp hpage
  obtain rfl := Except.ok.inj h
  obtain rfl := Except.ok.inj hpage
  obtain rfl : sections = [s] := hsections
  rw [html, Page.text, Page.write_singleton]

/-- Two files with a frame and the same frame with further nodes, and what is rendered of them. -/
theorem extends_of_holds (hfile : DesignFile.Holds file (.obj frame))
    (hfile' : DesignFile.Holds file' (.obj (frame.appendChildren more)))
    (h : ofJson file = .ok rendering) (h' : ofJson file' = .ok later) :
    later.Extends rendering := by
  obtain ⟨root, s, hroot, hregistry, hsheet, hsections, hs⟩ := exists_of_ofJson h
  obtain ⟨root', s', hroot', hregistry', hsheet', hsections', hs'⟩ := exists_of_ofJson h'
  obtain ⟨tree, htree, rfl⟩ := (DesignFile.rootIn_eq_ok_iff_of_holds hfile).mp hroot
  obtain ⟨tree', htree', rfl⟩ := (DesignFile.rootIn_eq_ok_iff_of_holds hfile').mp hroot'
  obtain ⟨source, children, added, rfl, rfl⟩ :=
    SourceNode.exists_of_readTree_appendChildren htree htree'
  -- the frame and its first children are placed as before
  obtain ⟨node, placed, addedPlaced, hroot, hroot'⟩ : ∃ node placed addedPlaced,
      DesignFile.root (.node source children) = .node node placed
        ∧ DesignFile.root (.node source (children ++ added)) = .node node (placed ++ addedPlaced) :=
    ⟨_, _, _, rfl, by rw [DesignFile.root, Node.place, Node.placeAll_append]; rfl⟩
  rw [hroot] at hregistry hs
  rw [hroot'] at hregistry' hs'
  rw [hregistry] at hsheet hs
  rw [hregistry'] at hsheet' hs'
  have hfront : Tree.preorderAll [Tree.node node placed]
      <+: Tree.preorderAll [Tree.node node (placed ++ addedPlaced)] := by
    rw [Tree.preorderAll_singleton, Tree.preorderAll_singleton, Tree.preorder, Tree.preorder,
      Tree.preorderAll_append]
    exact List.prefix_append (node :: Tree.preorderAll placed) _
  have hentries := fun kind => StyleRegistry.prefix_entries_ofForest hfront kind
  obtain ⟨addedBoxes, rfl⟩ := Node.pageSection_append
    (fun n hn => Node.sameClasses_ofForest hfront (by rwa [Tree.preorderAll_singleton])) hs hs'
  refine ⟨?_, Stylesheet.rules_sublist hentries hsheet hsheet', s, addedBoxes, hsections, hsections',
    Page.beforeBoxes Page.defaultTitle s ++ Box.writeAll 1 s.boxes, ?_, ?_⟩
  · rwa [hregistry, hregistry']
  · rw [html_eq h hsections]
  · rw [html_eq h' hsections', Box.writeAll_append, ← List.append_assoc]
    rfl

/-- **Appended nodes change nothing of what is there.**  A file that is rendered holds a frame, and
whatever nodes are appended to the children of this frame, if the rendering still succeeds, then it
extends the first one: the entries of each table stay in front, the rules stay as they are and in
order, and the page is the same up to the end of the section, where the new boxes stand. -/
theorem extends_of_appendChildren (h : ofJson file = .ok rendering) :
    (∃ frame : Fields, DesignFile.Holds file (.obj frame))
      ∧ ∀ (frame : Fields) (more : List Json) (file' : Json) (later : Rendering),
        DesignFile.Holds file (.obj frame) →
          DesignFile.Holds file' (.obj (frame.appendChildren more)) →
            ofJson file' = .ok later → later.Extends rendering := by
  constructor
  · obtain ⟨root, -, hroot, -⟩ := exists_of_ofJson h
    obtain ⟨frame, hframe⟩ := DesignFile.exists_holds_of_rootIn hroot
    obtain ⟨fields, rfl⟩ := hframe.exists_fields
    exact ⟨fields, hframe⟩
  · intro frame more file' later hfile hfile' h'
    exact extends_of_holds hfile hfile' h h'

/-- A frame with a fill and a text in it. -/
def filledFrame : Fields :=
  [("type", .str "FRAME"), ("name", .str "Frame"), ("fills", .arr [.obj [("type", .str "SOLID")]]),
    ("children", .arr [.obj [("type", .str "TEXT"), ("characters", .str "Hi")]])]

/-- A rectangle with a fill that the frame does not have, and a stroke. -/
def outlinedRectangle : Json :=
  .obj [("type", .str "RECTANGLE"), ("fills", .arr [.obj [("type", .str "IMAGE")]]),
    ("strokes", .arr [.obj [("type", .str "SOLID")]]), ("strokeWeight", .int 2)]

theorem extends_of_outlinedRectangle :
    ∃ rendering later, ofJson (fileOfFrame filledFrame) = .ok rendering
      ∧ ofJson (fileOfFrame (filledFrame.appendChildren [outlinedRectangle])) = .ok later
      ∧ later.Extends rendering := by
  have hok : Returns (ofJson (fileOfFrame filledFrame)) := returns_of_isOk (by decide +kernel)
  have hok' : Returns (ofJson (fileOfFrame (filledFrame.appendChildren [outlinedRectangle]))) :=
    returns_of_isOk (by decide +kernel)
  obtain ⟨rendering, h⟩ := hok
  obtain ⟨later, h'⟩ := hok'
  exact ⟨rendering, later, h, h', (extends_of_appendChildren h).2 filledFrame [outlinedRectangle] _ _
    (holds_fileOfFrame (by decide)) (holds_fileOfFrame (by decide)) h'⟩

end Rendering

end FrameExport
