import FrameExport.Proofs.Json.Fields
import FrameExport.Proofs.MainFrame
import FrameExport.Proofs.Node.Alike
import FrameExport.Rendering

/-!
# What does not matter to a rendering

Rendering looks at nothing but the frame of a file, and of its nodes at nothing but what is seen of
them (`Rendering.ofRoot_map_seen`).  So two files that hold frames alike have one rendering, whatever
else is in them (`Rendering.ofJson_eq_of_alike`).
-/

namespace FrameExport.Rendering

variable {file file' : Json} {rendering : Rendering}

/-- A placed frame is rendered from what is seen of its nodes. -/
theorem ofRoot_map_seen (root : Tree Node) : ofRoot (root.map Node.seen) = ofRoot root := by
  have hregistry : StyleRegistry.ofForest [root.map Node.seen] = .ofForest [root] :=
    StyleRegistry.ofForest_mapAll_seen [root]
  have hpage : ∀ registry, Page.ofForest Page.defaultTitle registry [root.map Node.seen]
      = Page.ofForest Page.defaultTitle registry [root] :=
    fun _ => Page.ofForest_singleton_congr (Node.pageSection_map_seen _ _)
  rw [ofRoot, ofRoot, hregistry]
  simp only [hpage]

theorem root_map_seen (tree : Tree SourceNode) :
    DesignFile.root (tree.map SourceNode.seen) = (DesignFile.root tree).map Node.seen := by
  obtain ⟨source, children⟩ := tree
  exact Node.place_map_seen _ _ _

/-- A frame is rendered like one of which the same is seen. -/
theorem ofRoot_root_eq {tree tree' : Tree SourceNode}
    (h : tree'.map SourceNode.seen = tree.map SourceNode.seen) :
    ofRoot (DesignFile.root tree') = ofRoot (DesignFile.root tree) := by
  rw [← ofRoot_map_seen (DesignFile.root tree'), ← root_map_seen, h, root_map_seen, ofRoot_map_seen]

/-- **Nothing but the frame matters, and of the frame nothing but what is seen.**  A file that is
rendered holds a frame.  Every file that holds a frame alike has the same rendering: the siblings of
the frame, as long as none before it is a main frame, the other pages and all other keys do not matter,
and neither do, in the frame, keys that the schema does not name, names, effects, paints besides the
first visible ones, and the characters and typographies of nodes that are no texts. -/
theorem ofJson_eq_of_alike (h : ofJson file = .ok rendering) :
    (∃ frame, DesignFile.Holds file frame)
      ∧ ∀ (frame frame' file' : Json), DesignFile.Holds file frame → DesignFile.Holds file' frame' →
        SourceNode.Alike frame frame' → ofJson file' = .ok rendering := by
  obtain ⟨root, hroot, h⟩ := bind_eq_ok_iff.mp h
  constructor
  · exact DesignFile.exists_holds_of_rootIn hroot
  · intro frame frame' file' hfile hfile' halike
    obtain ⟨tree, htree, rfl⟩ := (DesignFile.rootIn_eq_ok_iff_of_holds hfile).mp hroot
    obtain ⟨tree', htree', hseen⟩ := SourceNode.readTree_of_alike halike htree
    have hroot' := (DesignFile.rootIn_eq_ok_iff_of_holds hfile').mpr ⟨tree', htree', rfl⟩
    refine bind_eq_ok_iff.mpr ⟨_, hroot', ?_⟩
    rw [ofRoot_root_eq hseen]
    exact h

/-- A rectangle with a hidden paint and a visible one, and a rectangle of another name, with other
hidden paints, another paint behind the visible one, effects, characters, and keys of its own. -/
def paintedRectangle : Fields :=
  [("id", .str "1:2"), ("type", .str "RECTANGLE"), ("name", .str "Box"),
    ("absoluteBoundingBox", .obj [("width", .int 8), ("height", .int 4)]),
    ("fills", .arr [.obj [("visible", .bool false)], .obj [("type", .str "SOLID")]]),
    ("effects", .arr [.obj []])]

@[inherit_doc paintedRectangle]
def repaintedRectangle : Fields :=
  [("id", .str "1:2"), ("type", .str "RECTANGLE"), ("name", .str "Other box"), ("locked", .bool true),
    ("absoluteBoundingBox", .obj [("rotation", .null), ("width", .int 8), ("height", .int 4)]),
    ("fills", .arr [.obj [("type", .str "IMAGE"), ("visible", .bool false)],
      .obj [("type", .str "SOLID")], .obj [("type", .str "IMAGE")]]),
    ("effects", .arr [.obj [("type", .str "DROP_SHADOW")], .obj []]), ("characters", .str "none"),
    ("style", .obj [("fontSize", .str "large")])]

theorem sameLook_repaintedRectangle :
    SourceNode.SameLook paintedRectangle repaintedRectangle where
  plain := by
    simp only [SourceNode.plainKeys, List.forall_mem_cons]
    exact ⟨rfl, rfl, rfl, rfl, rfl, rfl, fun _ h => absurd h List.not_mem_nil⟩
  name := .inr ⟨"Other box", rfl⟩
  bounds := by
    refine .changed ?_
    simp only [List.forall_mem_cons]
    exact ⟨rfl, rfl, rfl, rfl, fun _ h => absurd h List.not_mem_nil⟩
  fills := @SourceNode.SamePaints.changed [[("visible", .bool false)]]
    [[("type", .str "IMAGE"), ("visible", .bool false)]] [] [[("type", .str "IMAGE")]] _
    (by decide) (by decide) (by decide)
  strokes := .same _
  effects := .inr ⟨[[("type", .str "DROP_SHADOW")], []], rfl⟩
  characters := .inr ⟨fun h => absurd (Json.str.inj h) (by decide), "none", rfl⟩
  style := .inr ⟨fun h => absurd (Json.str.inj h) (by decide), _, rfl⟩

/-- A frame around a node. -/
def frameAround (child : Fields) : Fields :=
  [("type", .str "FRAME"), ("name", .str "Frame"), ("children", .arr [.obj child])]

/-- A file with the repainted rectangle in its frame, other members on its page, a second page and
keys of its own. -/
def crowdedFile : Json :=
  .obj [("name", .str "Design"), ("version", .int 7),
    ("document", .obj [("id", .str "0:0"), ("children", .arr [
      .obj [("name", .str "Page"), ("children", .arr [.int 5, .obj [("type", .str "FRAME")],
        .obj (frameAround repaintedRectangle), .null])], .str "no page"])])]

theorem ofJson_crowdedFile :
    ∃ rendering, ofJson (fileOfFrame (frameAround paintedRectangle)) = .ok rendering
      ∧ ofJson crowdedFile = .ok rendering := by
  obtain ⟨rendering, h⟩ : Returns (ofJson (fileOfFrame (frameAround paintedRectangle))) :=
    returns_of_isOk (by decide +kernel)
  have hlook : SourceNode.SameLook (frameAround paintedRectangle) (frameAround repaintedRectangle) :=
    .of_get fun key hkey => by simp only [frameAround, Fields.get_cons, if_neg hkey]
  have halike : SourceNode.Alike (.obj (frameAround paintedRectangle))
      (.obj (frameAround repaintedRectangle)) :=
    .node hlook rfl rfl (.cons (.leaf sameLook_repaintedRectangle rfl rfl) .nil)
  have hholds : DesignFile.Holds crowdedFile (.obj (frameAround repaintedRectangle)) :=
    ⟨_, _, _, [.str "no page"], [.int 5, .obj [("type", .str "FRAME")]], [.null], rfl,
      Or.inr ⟨"Design", rfl⟩, rfl, rfl, rfl, by decide, by decide⟩
  exact ⟨rendering, h, (ofJson_eq_of_alike h).2 _ _ _ (holds_fileOfFrame (by decide)) hholds halike⟩

end FrameExport.Rendering
