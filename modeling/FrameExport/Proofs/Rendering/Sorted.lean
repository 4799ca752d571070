import FrameExport.Proofs.MainFrame
import FrameExport.Proofs.Page.Boxes
import FrameExport.Proofs.Style.Sorted
import FrameExport.Rendering

/-!
# The order of fields does not matter

Rendering a file with sorted fields gives what rendering the file gives, up to sorted fields in the
registry (`Rendering.ofJson_sorted`).  Sorting makes one file of all that differ in the order of
fields, so these have one outcome: the same page, style sheet and sizes of the tables, or the same
error (`Rendering.outcome_eq_of_reordered`).

The typographies must have no objects in them: an object that stands where a number belongs is shown
with its fields in the order in which they stand.
-/

namespace FrameExport

open Json (sortedObject reorderedFields_sortedObject)

/-! ### Typographies without objects -/

/-- No value in the typography of the text of a node is or contains an object. -/
def Node.ObjectFree (n : Node) : Prop :=
  ∀ text, n.textContent? = some text → ∀ f ∈ text.style, f.2.objectFree = true

theorem Node.objectFree_sorted_iff {n : Node} : n.sorted.ObjectFree ↔ n.ObjectFree := by
  unfold Node.ObjectFree
  rw [Node.textContent?_sorted]
  cases n.textContent? with
  | none => simp
  | some text =>
    simp only [Option.map_some, Option.some.injEq, forall_eq']
    exact Json.forall_objectFree_sortedObject_iff

namespace Typography

variable {style : Fields}

theorem declarations_sorted (h : ∀ f ∈ style, f.2.objectFree = true) :
    declarations (sortedObject style) = declarations style :=
  (declarations_eq (reorderedFields_sortedObject style) h).symm

theorem metrics_sorted (h : ∀ f ∈ style, f.2.objectFree = true) :
    metrics (sortedObject style) = metrics style := by
  have hget := (reorderedFields_sortedObject style).get_eq_of_objectFree h
  simp only [metrics, hget]

theorem alignment_sorted (v : Json) : alignment v.sorted = alignment v := by
  simp only [alignment, Json.isText_sorted]

end Typography

/-! ### The style sheet -/

namespace Stylesheet

theorem textRule_sorted {entry : StyleEntry}
    (h : ∀ style, entry.payload = .obj style → ∀ f ∈ style, f.2.objectFree = true) :
    textRule entry.sorted = textRule entry := by
  obtain ⟨key, className, payload, weight⟩ := entry
  cases payload with
  | obj style =>
    exact congrArg (fun ds => Except.ok (classRule ⟨key, className, .obj style, weight⟩ ds))
      (Typography.declarations_sorted (h style rfl))
  | _ => rfl

theorem fillRule_sorted (entry : StyleEntry) : fillRule entry.sorted = fillRule entry := by
  have hfill := fillDeclaration_eq (Json.reordered_sorted entry.payload)
  rw [fillRule, fillRule, hfill]
  rfl

theorem strokeRule_sorted (entry : StyleEntry) : strokeRule entry.sorted = strokeRule entry := by
  have hstroke := strokeDeclaration_eq (Json.reordered_sorted entry.payload) entry.weight
  rw [strokeRule, strokeRule, hstroke]
  rfl

/-- The style sheet of a registry with sorted fields. -/
theorem ofRegistry_sorted {registry : StyleRegistry}
    (h : ∀ entry ∈ registry.texts.entries, ∀ style, entry.payload = .obj style →
      ∀ f ∈ style, f.2.objectFree = true) : ofRegistry registry.sorted = ofRegistry registry := by
  have hmapM : ∀ {rule : StyleEntry → Except Fault Rule} {entries : List StyleEntry},
      (∀ entry ∈ entries, rule entry.sorted = rule entry) →
      (entries.map StyleEntry.sorted).mapM rule = entries.mapM rule := by
    intro rule entries hrule
    have hpairs : List.Forall₂ (fun entry entry' => entry' ∈ entries ∧ entry = entry'.sorted)
        (entries.map StyleEntry.sorted) entries := by
      rw [List.forall₂_map_left_iff, List.forall₂_same]
      exact fun entry hentry => ⟨hentry, rfl⟩
    refine mapM_eq_mapM_of_forall₂ hpairs ?_
    rintro _ entry ⟨hentry, rfl⟩
    exact hrule entry hentry
  have htexts : registry.sorted.texts.entries.mapM textRule
      = registry.texts.entries.mapM textRule :=
    hmapM fun entry hentry => textRule_sorted (h entry hentry)
  have hfills : registry.sorted.fills.entries.mapM fillRule
      = registry.fills.entries.mapM fillRule := hmapM fun entry _ => fillRule_sorted entry
  have hstrokes : registry.sorted.strokes.entries.mapM strokeRule
      = registry.strokes.entries.mapM strokeRule := hmapM fun entry _ => strokeRule_sorted entry
  rw [ofRegistry, ofRegistry, htexts, hfills, hstrokes]

end Stylesheet

/-! ### The page -/

namespace Node

variable {registry : StyleRegistry} {n : Node}

theorem textColor_sorted (n : Node) : n.sorted.textColor = n.textColor := by
  have hfills : Paint.firstVisible n.sorted.fills
      = (Paint.firstVisible n.fills).map sortedObject := Paint.firstVisible_sorted n.fills
  rw [textColor, textColor, hfills]
  cases Paint.firstVisible n.fills with
  | none => rfl
  | some paint =>
    have hreordered := reorderedFields_sortedObject paint
    have hcolor := Paint.color_eq (Json.reordered_sorted (.obj paint))
    show (if Paint.isSolid (sortedObject paint) then
      (Paint.color (Json.obj paint).sorted).map Color.text else _) = _
    rw [← Paint.isSolid_eq hreordered, ← hcolor]

theorem paragraph_sorted {text : TextContent} (h : ∀ f ∈ text.style, f.2.objectFree = true) :
    n.sorted.paragraph text.sorted = n.paragraph text := by
  have hmetrics : Typography.metrics text.sorted.style = Typography.metrics text.style :=
    Typography.metrics_sorted h
  have halignment : Typography.alignment (text.sorted.style.get "textAlignHorizontal")
      = Typography.alignment (text.style.get "textAlignHorizontal") := by
    rw [TextContent.sorted, Json.get_sortedObject, Typography.alignment_sorted]
  rw [paragraph, paragraph, textColor_sorted, hmetrics, halignment]
  rfl

theorem bind_classOf?_sorted (registry : StyleRegistry) (d? : Option Descriptor) :
    (d?.map Descriptor.sorted).bind registry.sorted.classOf? = d?.bind registry.classOf? := by
  cases d? with
  | none => rfl
  | some d => exact registry.classOf?_sorted d

theorem areaClasses_sorted (registry : StyleRegistry) (n : Node) :
    n.sorted.areaClasses registry.sorted = n.areaClasses registry := by
  have hfill : n.sorted.fillDescriptor? = n.fillDescriptor?.map Descriptor.sorted :=
    n.descriptor?_sorted .fill
  have hstroke : n.sorted.strokeDescriptor? = n.strokeDescriptor?.map Descriptor.sorted :=
    n.descriptor?_sorted .stroke
  rw [areaClasses, areaClasses, fillClass?, fillClass?, strokeClass?, strokeClass?, hfill, hstroke,
    bind_classOf?_sorted, bind_classOf?_sorted]
  rfl

/-- A node has the same box with sorted fields. -/
theorem box_sorted (h : n.ObjectFree) : n.sorted.box registry.sorted = n.box registry := by
  have htext : n.sorted.textDescriptor? = n.textDescriptor?.map Descriptor.sorted :=
    n.descriptor?_sorted .text
  have hclass : n.sorted.textClass? registry.sorted = n.textClass? registry := by
    rw [textClass?, textClass?, htext, bind_classOf?_sorted]
  rw [box, box, textContent?_sorted, areaClasses_sorted, hclass]
  cases hcontent : n.textContent? with
  | none => rfl
  | some text =>
    rw [Option.map_some]
    show ((n.sorted.paragraph text.sorted) >>= _) = _
    rw [paragraph_sorted (h text hcontent)]
    rfl

theorem pageSection_sorted {root : Tree Node} (h : ∀ n ∈ root.preorder, n.ObjectFree) :
    pageSection registry.sorted (root.map sorted) = pageSection registry root :=
  pageSection_map (fun n hn => ⟨box_sorted (h n hn), isText_sorted n⟩) rfl
    (areaClasses_sorted registry root.value) rfl

end Node

/-! ### The rendering -/

namespace Rendering

variable {file file' : Json} {root : Tree Node}

/-- The rendering with sorted fields in its registry. -/
def sorted (rendering : Rendering) : Rendering :=
  { rendering with registry := rendering.registry.sorted }

theorem ofRoot_sorted (h : ∀ n ∈ root.preorder, n.ObjectFree) :
    ofRoot (root.map Node.sorted) = (ofRoot root).map sorted := by
  have hregistry : StyleRegistry.ofForest [root.map Node.sorted]
      = (StyleRegistry.ofForest [root]).sorted := StyleRegistry.ofForest_mapAll_sorted [root]
  have hsheet : Stylesheet.ofRegistry (StyleRegistry.ofForest [root]).sorted
      = Stylesheet.ofRegistry (StyleRegistry.ofForest [root]) := by
    refine Stylesheet.ofRegistry_sorted fun entry hentry style hstyle => ?_
    obtain ⟨i, d, hd, rfl⟩ := StyleRegistry.mem_entries_ofForest.mp
      (show entry ∈ ((StyleRegistry.ofForest [root]).table .text).entries from hentry)
    obtain ⟨n, hn, hdescriptor⟩ := StyleRegistry.exists_node_of_mem (List.mem_of_getElem? hd)
    obtain ⟨text, htext, rfl⟩ := Option.map_eq_some_iff.mp hdescriptor
    obtain rfl := Json.obj.inj hstyle
    rw [Tree.preorderAll_singleton] at hn
    exact h n hn text htext
  have hpage : ∀ registry, Page.ofForest Page.defaultTitle registry.sorted [root.map Node.sorted]
      = Page.ofForest Page.defaultTitle registry [root] :=
    fun _ => Page.ofForest_singleton_congr (Node.pageSection_sorted h)
  rw [ofRoot, ofRoot, hregistry, hsheet, hpage]
  cases Stylesheet.ofRegistry (StyleRegistry.ofForest [root]) with
  | error fault => rfl
  | ok sheet => cases Page.ofForest Page.defaultTitle (StyleRegistry.ofForest [root]) [root] <;> rfl

/-- No typography in the frame of a file has an object in it. -/
def ObjectFree (file : Json) : Prop :=
  ∀ root, DesignFile.rootIn file = .ok root → ∀ n ∈ root.preorder, n.ObjectFree

/-- The rendering of a file with sorted fields, or the same error. -/
theorem ofJson_sorted (h : ObjectFree file) : ofJson file.sorted = (ofJson file).map sorted := by
  rw [ofJson, ofJson, DesignFile.rootIn_sorted]
  cases hroot : DesignFile.rootIn file with
  | error e => rfl
  | ok root =>
    show (ofRoot (root.map Node.sorted)).mapError _ = Except.map _ ((ofRoot root).mapError _)
    rw [ofRoot_sorted (h root hroot)]
    cases ofRoot root <;> rfl

theorem ObjectFree.of_reordered (h : ObjectFree file) (hreordered : Json.Reordered file file') :
    ObjectFree file' := by
  intro root' hroot' n' hn'
  have hsorted : (DesignFile.rootIn file).map (Tree.map Node.sorted)
      = (DesignFile.rootIn file').map (Tree.map Node.sorted) := by
    rw [← DesignFile.rootIn_sorted, ← DesignFile.rootIn_sorted,
      (Json.sorted_eq_sorted_iff file file').mpr hreordered]
  rw [hroot'] at hsorted
  cases hroot : DesignFile.rootIn file with
  | error e =>
    rw [hroot] at hsorted
    cases hsorted
  | ok root =>
    rw [hroot] at hsorted
    have hpreorder := congrArg Tree.preorder (Except.ok.inj hsorted)
    rw [Tree.preorder_map, Tree.preorder_map] at hpreorder
    have hmem : n'.sorted ∈ root.preorder.map Node.sorted := by
      rw [hpreorder]
      exact List.mem_map_of_mem hn'
    obtain ⟨n, hn, heq⟩ := List.mem_map.mp hmem
    rw [← Node.objectFree_sorted_iff, ← heq, Node.objectFree_sorted_iff]
    exact h root hroot n hn

/-- What is made of a file: the page, the style sheet and the sizes of the tables. -/
def outcome (file : Json) : Except DesignError (String × String × StyleSummary) :=
  (ofJson file).map fun rendering =>
    (rendering.html, rendering.css, rendering.registry.summary)

theorem outcome_sorted (h : ObjectFree file) : outcome file.sorted = outcome file := by
  rw [outcome, outcome, ofJson_sorted h]
  cases ofJson file with
  | error e => rfl
  | ok rendering =>
    show Except.ok (_, _, rendering.registry.sorted.summary) = _
    rw [StyleRegistry.summary_sorted]
    rfl

/-- **Files that differ only in the order of fields have the same outcome**, be it the page, the
style sheet and the sizes of the tables or an error, if no typography in the frame has an object in
it. -/
theorem outcome_eq_of_reordered (hreordered : Json.Reordered file file') (h : ObjectFree file) :
    outcome file = outcome file' := by
  have hsorted := (Json.sorted_eq_sorted_iff file file').mpr hreordered
  calc outcome file = outcome file.sorted := (outcome_sorted h).symm
    _ = outcome file'.sorted := congrArg outcome hsorted
    _ = outcome file' := outcome_sorted (h.of_reordered hreordered)

/-- A frame around a text, its fields in two orders. -/
def orderedFrame : Fields :=
  [("type", .str "FRAME"), ("name", .str "Frame"),
    ("fills", .arr [.obj [("type", .str "SOLID"), ("color", .obj [("r", .int 1), ("b", .int 1)])]]),
    ("children", .arr [.obj [("type", .str "TEXT"),
      ("style", .obj [("fontSize", .int 16), ("fontFamily", .str "Inter")])]])]

@[inherit_doc orderedFrame]
def swappedFrame : Fields :=
  [("children", .arr [.obj [("style", .obj [("fontFamily", .str "Inter"), ("fontSize", .int 16)]),
      ("type", .str "TEXT")]]),
    ("fills", .arr [.obj [("color", .obj [("b", .int 1), ("r", .int 1)]), ("type", .str "SOLID")]]),
    ("name", .str "Frame"), ("type", .str "FRAME")]

theorem outcome_eq_of_swappedFrame :
    Json.Reordered (fileOfFrame orderedFrame) (fileOfFrame swappedFrame)
      ∧ outcome (fileOfFrame orderedFrame) = outcome (fileOfFrame swappedFrame) := by
  have hreordered : Json.Reordered (fileOfFrame orderedFrame) (fileOfFrame swappedFrame) :=
    (Json.sorted_eq_sorted_iff _ _).mp rfl
  have hfree : ObjectFree (fileOfFrame orderedFrame) := by
    intro root hroot n hn text htext
    obtain ⟨root', hroot', hstyles⟩ : ∃ root,
        DesignFile.rootIn (fileOfFrame orderedFrame) = .ok root
          ∧ root.preorder.filterMap (fun n => n.textContent?.map TextContent.style)
            = [[("fontSize", .int 16), ("fontFamily", .str "Inter")]] := ⟨_, rfl, rfl⟩
    obtain rfl := Except.ok.inj (hroot.symm.trans hroot')
    have hmem : text.style
        ∈ root.preorder.filterMap fun n => n.textContent?.map TextContent.style :=
      List.mem_filterMap.mpr ⟨n, hn, by rw [htext, Option.map_some]⟩
    rw [hstyles, List.mem_singleton] at hmem
    rw [hmem]
    decide
  exact ⟨hreordered, outcome_eq_of_reordered hreordered hfree⟩

end Rendering

end FrameExport
