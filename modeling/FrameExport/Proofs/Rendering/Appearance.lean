import FrameExport.Proofs.Page.Boxes
import FrameExport.Proofs.Rendering.Emission
import FrameExport.Proofs.Stylesheet.Rules
import FrameExport.Rendering

/-!
# What the classes of an element say

Nodes that ask for the same style share a class, whose rule was made from what the first of them asks
for.  `appearance_of_ofJson` says that this changes nothing: on the page of a rendering, each class of
an element has one entry in the registry and one rule in the style sheet, and the rule says what the
node itself asks for.  No class is missing: an area has the class of its visible fill, every element
that of its visible stroke with a weight, and every text in the page that of its typography.

The steps are `StyleRegistry.exists_entry` (the entry of a class differs from what the node asks for
in the order of fields only), `filter_rules_selector` (the class has one rule), and the lemmas on
reordered paints and typographies (the rule is the one of the node).
-/

namespace FrameExport

open Paint (firstVisible)

namespace Node

/-- What a node asks for itself in a kind of style.  For a typography this is said only if no value
in it is or contains an object. -/
def OwnDeclarations (n : Node) (declarations : List Declaration) : StyleKind → Prop
  | .text => ∃ text, n.textContent? = some text
      ∧ ((∀ f ∈ text.style, f.2.objectFree = true) →
        declarations = Typography.declarations text.style)
  | .fill => ∃ paint declaration, firstVisible n.fills = some paint
      ∧ Stylesheet.fillDeclaration (.obj paint) = .ok declaration ∧ declarations = [declaration]
  | .stroke => ∃ paint weight declaration, firstVisible n.strokes = some paint
      ∧ n.strokeWeight = some weight
      ∧ Stylesheet.strokeDeclaration (.obj paint) (.double weight) = .ok declaration
      ∧ declarations = [declaration]

/-- A class token gives a node its own look in a kind of style: exactly one entry has the class, and
exactly one rule selects it, which says what the node itself asks for. -/
structure Wears (registry : StyleRegistry) (sheet : Stylesheet) (n : Node) (kind : StyleKind)
    (token : String) : Prop where
  className : ∃ i, token = kind.className i
  entry : ∃ entry, registry.entries.filter (fun e => e.className = token) = [entry]
  rule : ∃ declarations, (Stylesheet.globalRules ++ sheet.rules).filter
      (fun rule => rule.selector = "." ++ token) = [⟨"." ++ token, declarations⟩]
    ∧ n.OwnDeclarations declarations kind

/-- The class tokens of an element give its node its own look, and neither the class of its fill nor
that of its stroke is missing. -/
structure Dressed (registry : StyleRegistry) (sheet : Stylesheet) (n : Node) (base : String)
    (tokens : List String) : Prop where
  wears : ∀ token ∈ tokens, token ≠ base → ∃ kind, n.Wears registry sheet kind token
  fill : n.type ≠ textKind →
    ((∃ i, StyleKind.fill.className i ∈ tokens) ↔ (firstVisible n.fills).isSome)
  stroke : (∃ i, StyleKind.stroke.className i ∈ tokens)
    ↔ (firstVisible n.strokes).isSome
      ∧ ∃ weight, n.strokeWeight = some weight ∧ weight.isZero = false

variable {forest : List (Tree Node)} {sheet : Stylesheet} {registry : StyleRegistry} {n : Node}
  {kind : StyleKind} {d : Descriptor} {entry : StyleEntry} {rule : Rule} {token : String}

/-! ### The rule of an entry -/

/-- The rule of an entry says what a node asks for whose descriptor has the key of the entry. -/
theorem ownDeclarations_of_entryRule (hd : n.descriptor? kind = some d)
    (hpayload : Json.Reordered entry.payload d.payload) (hweight : entry.weight = d.weight)
    (hrule : Stylesheet.entryRule kind entry = .ok rule) :
    n.OwnDeclarations rule.declarations kind := by
  cases kind with
  | text =>
    obtain ⟨text, htext, rfl⟩ := Option.map_eq_some_iff.mp hd
    refine ⟨text, htext, fun hfree => ?_⟩
    rcases hpayload.symm.fields? with ⟨hnone, -⟩ | ⟨fs, gs, hfs, hgs, hfields⟩
    · cases hnone
    · obtain rfl := Option.some.inj hfs
      simp only [Stylesheet.entryRule, Stylesheet.textRule] at hrule
      split at hrule
      · rename_i style hstyle
        rw [hstyle] at hgs
        obtain rfl := Option.some.inj hgs
        rw [← Except.ok.inj hrule]
        exact (Typography.declarations_eq hfields hfree).symm
      · cases hrule
  | fill =>
    obtain ⟨paint, hpaint, rfl⟩ := Option.map_eq_some_iff.mp hd
    obtain ⟨declaration, hdeclaration, hrule⟩ := bind_eq_ok_iff.mp hrule
    refine ⟨paint, declaration, hpaint, ?_, ?_⟩
    · rw [← hdeclaration]
      exact (Stylesheet.fillDeclaration_eq hpayload).symm
    · rw [← Except.ok.inj hrule]
      rfl
  | stroke =>
    obtain ⟨paint, weight, hpaint, hvisible, rfl⟩ := mem_strokeDescriptor?.mp hd
    obtain ⟨declaration, hdeclaration, hrule⟩ := bind_eq_ok_iff.mp hrule
    refine ⟨paint, weight, declaration, hpaint, (visibleWeight?_eq_some_iff.mp hvisible).1, ?_, ?_⟩
    · rw [← hdeclaration, hweight]
      exact (Stylesheet.strokeDeclaration_eq hpayload _).symm
    · rw [← Except.ok.inj hrule]
      rfl

/-! ### The class of what a node asks for -/

theorem exists_classOf? (hn : n ∈ Tree.preorderAll forest) (hd : n.descriptor? kind = some d) :
    ∃ i, (StyleRegistry.ofForest forest).classOf? d = some (kind.className i) := by
  obtain ⟨i, e, -, -, hget, -⟩ := StyleRegistry.exists_entry hn hd
  refine ⟨i, ?_⟩
  rw [StyleRegistry.classOf?_eq hd, hget]
  rfl

/-- The class of what a node asks for gives the node its own look. -/
theorem wears_of_classOf? (hsheet : Stylesheet.ofRegistry (.ofForest forest) = .ok sheet)
    (hn : n ∈ Tree.preorderAll forest) (hd : n.descriptor? kind = some d)
    (htoken : (StyleRegistry.ofForest forest).classOf? d = some token) :
    n.Wears (.ofForest forest) sheet kind token := by
  obtain ⟨i, e, hi, -, hget, hpayload, hweight⟩ := StyleRegistry.exists_entry hn hd
  have hentry := StyleRegistry.mem_entries_ofForest.mpr ⟨i, e, hi, rfl⟩
  rw [StyleRegistry.classOf?_eq hd, hget] at htoken
  obtain rfl := Option.some.inj htoken
  obtain ⟨rule, hfilter, hrule⟩ := Stylesheet.filter_rules_selector hsheet hentry
  refine ⟨⟨i, rfl⟩, ⟨_, StyleRegistry.filter_className (StyleRegistry.nodup_classNames forest)
    (StyleRegistry.mem_entries.mpr ⟨kind, hentry⟩)⟩, rule.declarations, ?_,
    ownDeclarations_of_entryRule hd hpayload hweight hrule⟩
  rw [hfilter, ← Stylesheet.selector_eq hrule]

theorem fillClass?_eq_some_iff :
    n.fillClass? registry = some token ↔ n.type ≠ textKind
      ∧ ∃ d, n.descriptor? .fill = some d ∧ registry.classOf? d = some token := by
  unfold fillClass?
  split
  · rename_i htype
    simp [htype]
  · rename_i htype
    rw [Option.bind_eq_some_iff]
    exact (and_iff_right htype).symm

theorem strokeClass?_eq_some_iff :
    n.strokeClass? registry = some token
      ↔ ∃ d, n.descriptor? .stroke = some d ∧ registry.classOf? d = some token :=
  Option.bind_eq_some_iff

theorem textClass?_eq_some_iff :
    n.textClass? registry = some token
      ↔ ∃ d, n.descriptor? .text = some d ∧ registry.classOf? d = some token :=
  Option.bind_eq_some_iff

/-! ### The classes of an element -/

/-- A list of the classes of the styles of a node: those of an area, and that of its typography or
not. -/
inductive IsStyleClasses (registry : StyleRegistry) (n : Node) : List String → Prop
  | area : IsStyleClasses registry n (n.areaClasses registry)
  | text : IsStyleClasses registry n
      (n.areaClasses registry ++ (n.textClass? registry).toList)

variable {classes : List String} {base : String}

theorem IsStyleClasses.exists_of_mem (h : IsStyleClasses registry n classes)
    (htoken : token ∈ classes) :
    ∃ kind d, n.descriptor? kind = some d ∧ registry.classOf? d = some token := by
  have harea : token ∈ n.areaClasses registry →
      ∃ kind d, n.descriptor? kind = some d ∧ registry.classOf? d = some token := by
    intro hmem
    rcases List.mem_append.mp hmem with hfill | hstroke
    · exact ⟨.fill, (fillClass?_eq_some_iff.mp (Option.mem_toList.mp hfill)).2⟩
    · exact ⟨.stroke, strokeClass?_eq_some_iff.mp (Option.mem_toList.mp hstroke)⟩
  cases h with
  | area => exact harea htoken
  | text =>
    rcases List.mem_append.mp htoken with hmem | htext
    · exact harea hmem
    · exact ⟨.text, textClass?_eq_some_iff.mp (Option.mem_toList.mp htext)⟩

theorem IsStyleClasses.areaClasses_subset (h : IsStyleClasses registry n classes)
    (htoken : token ∈ n.areaClasses registry) : token ∈ classes := by
  cases h with
  | area => exact htoken
  | text => exact List.mem_append_left _ htoken

/-- The class of a style stands at an element only if the node asks for a style of that kind. -/
theorem IsStyleClasses.exists_descriptor? (hn : n ∈ Tree.preorderAll forest)
    (h : IsStyleClasses (.ofForest forest) n classes) {i : Nat}
    (htoken : kind.className i ∈ classes) : ∃ d, n.descriptor? kind = some d := by
  obtain ⟨l, d, hd, hclass⟩ := h.exists_of_mem htoken
  -- a class tells its kind
  obtain ⟨j, hj⟩ := exists_classOf? hn hd
  obtain ⟨rfl, -⟩ := StyleKind.className_inj.mp (Option.some.inj (hj.symm.trans hclass))
  exact ⟨d, hd⟩

theorem IsStyleClasses.tokens_eq (hn : n ∈ Tree.preorderAll forest)
    (h : IsStyleClasses (.ofForest forest) n classes) (hbase : ' ' ∉ base.toList) :
    tokens (base :: classes) = base :: classes := by
  apply FrameExport.tokens_eq (List.cons_ne_nil _ _)
  rw [List.forall_mem_cons]
  refine ⟨hbase, fun token htoken => ?_⟩
  -- every class but the first is the class of a style, which has no blank in it
  obtain ⟨kind, d, hd, hclass⟩ := h.exists_of_mem htoken
  obtain ⟨i, hi⟩ := exists_classOf? hn hd
  obtain rfl := Option.some.inj (hi.symm.trans hclass)
  exact StyleKind.blank_notMem_className kind i

/-- An element whose classes are `base` and those of the styles of a node is dressed as the node asks
for. -/
theorem IsStyleClasses.dressed (hsheet : Stylesheet.ofRegistry (.ofForest forest) = .ok sheet)
    (hn : n ∈ Tree.preorderAll forest) (h : IsStyleClasses (.ofForest forest) n classes)
    (hbase : ' ' ∉ base.toList) (hname : ∀ (kind : StyleKind) i, base ≠ kind.className i) :
    n.Dressed (.ofForest forest) sheet base (tokens (base :: classes)) := by
  rw [h.tokens_eq hn hbase]
  constructor
  · intro token htoken hne
    rcases List.mem_cons.mp htoken with heq | hmem
    · exact absurd heq hne
    · obtain ⟨kind, d, hd, hclass⟩ := h.exists_of_mem hmem
      exact ⟨kind, wears_of_classOf? hsheet hn hd hclass⟩
  · intro htype
    constructor
    · rintro ⟨i, hi⟩
      have hmem := (List.mem_cons.mp hi).resolve_left fun heq => hname _ _ heq.symm
      obtain ⟨d, hd⟩ := h.exists_descriptor? hn hmem
      obtain ⟨paint, hpaint, -⟩ := Option.map_eq_some_iff.mp hd
      rw [hpaint]
      rfl
    · intro hsome
      obtain ⟨paint, hpaint⟩ := Option.isSome_iff_exists.mp hsome
      have hd : n.descriptor? .fill = some (.fill paint) := Option.map_eq_some_iff.mpr
        ⟨paint, hpaint, rfl⟩
      obtain ⟨i, hi⟩ := exists_classOf? hn hd
      have hclass := fillClass?_eq_some_iff.mpr ⟨htype, _, hd, hi⟩
      exact ⟨i, List.mem_cons_of_mem _ (h.areaClasses_subset
        (List.mem_append_left _ (Option.mem_toList.mpr hclass)))⟩
  · constructor
    · rintro ⟨i, hi⟩
      have hmem := (List.mem_cons.mp hi).resolve_left fun heq => hname _ _ heq.symm
      obtain ⟨d, hd⟩ := h.exists_descriptor? hn hmem
      obtain ⟨paint, weight, hpaint, hvisible, -⟩ := mem_strokeDescriptor?.mp hd
      rw [hpaint]
      exact ⟨rfl, weight, visibleWeight?_eq_some_iff.mp hvisible⟩
    · rintro ⟨hsome, weight, hweight⟩
      obtain ⟨paint, hpaint⟩ := Option.isSome_iff_exists.mp hsome
      have hd : n.descriptor? .stroke = some (.stroke paint weight) := mem_strokeDescriptor?.mpr
        ⟨paint, weight, hpaint, visibleWeight?_eq_some_iff.mpr hweight, rfl⟩
      obtain ⟨i, hi⟩ := exists_classOf? hn hd
      have hclass := strokeClass?_eq_some_iff.mpr ⟨_, hd, hi⟩
      exact ⟨i, List.mem_cons_of_mem _ (h.areaClasses_subset
        (List.mem_append_right _ (Option.mem_toList.mpr hclass)))⟩

end Node

namespace Rendering

variable {file : Json} {rendering : Rendering}

/-! ### The page of a rendering -/

/-- What a rendering is made of: the registry of the placed frame, the style sheet of it, and a page
with one section. -/
theorem exists_of_ofJson (h : ofJson file = .ok rendering) :
    ∃ root s, DesignFile.rootIn file = .ok root
      ∧ rendering.registry = .ofForest [root]
      ∧ Stylesheet.ofRegistry rendering.registry = .ok rendering.sheet
      ∧ rendering.page.sections = [s]
      ∧ Node.pageSection rendering.registry root = .ok s := by
  obtain ⟨root, hroot, h⟩ := bind_eq_ok_iff.mp h
  obtain ⟨sheet, hsheet, h⟩ := bind_eq_ok_iff.mp (mapError_eq_ok_iff.mp h)
  obtain ⟨page, hpage, h⟩ := bind_eq_ok_iff.mp h
  obtain ⟨sections, hsections, hmake⟩ := bind_eq_ok_iff.mp hpage
  obtain ⟨s, rest, hs, hrest, rfl⟩ := List.forall₂_cons_left_iff.mp (mapM_eq_ok_iff.mp hsections)
  obtain rfl := List.forall₂_nil_left_iff.mp hrest
  obtain rfl := Except.ok.inj hmake
  obtain rfl := Except.ok.inj h
  exact ⟨root, s, hroot, rfl, hsheet, rfl, hs⟩

/-- The nodes of a placed frame that hold characters have some. -/
theorem textContent?_isSome_of_rootIn {root : Tree Node} (h : DesignFile.rootIn file = .ok root)
    {n : Node} (hn : n ∈ root.preorder) (htype : n.type = textKind) : n.textContent?.isSome := by
  obtain ⟨design, -, h⟩ := bind_eq_ok_iff.mp h
  obtain ⟨frame, -, h⟩ := bind_eq_ok_iff.mp h
  obtain rfl := Except.ok.inj h
  exact Node.textContent?_isSome_of_mem_place hn htype

/-- **Sharing classes keeps the look of every node.**  On the page of a rendering there is one section
for the frame, with one box for each shown node below it in order.  Each class token of these elements
has exactly one entry in the registry and one rule in the style sheet, and the rule says what the node
itself asks for; an element has the class of a fill, a stroke or a typography whenever its node has
one to show. -/
theorem appearance_of_ofJson (h : ofJson file = .ok rendering) :
    ∃ root s, DesignFile.rootIn file = .ok root
      ∧ rendering.registry = .ofForest [root]
      ∧ rendering.page.sections = [s]
      ∧ s.id = root.value.id
      ∧ root.value.Dressed rendering.registry rendering.sheet "page" (tokens s.classes)
      ∧ List.Forall₂ (fun n b => b.id = n.id
          ∧ n.Dressed rendering.registry rendering.sheet "node" (tokens b.classes)
          ∧ (n.type = textKind → ∃ i, StyleKind.text.className i ∈ tokens b.classes))
        (Node.shownAll root.children) (Tree.preorderAll s.boxes) := by
  obtain ⟨root, s, hroot, hregistry, hsheet, hsections, hs⟩ := exists_of_ofJson h
  refine ⟨root, s, hroot, hregistry, hsections, ?_⟩
  rw [hregistry] at hsheet hs ⊢
  obtain ⟨boxes, hboxes, hmake⟩ := bind_eq_ok_iff.mp hs
  obtain rfl := Except.ok.inj hmake
  obtain ⟨node, children⟩ := root
  have hforest : Tree.preorderAll [Tree.node node children]
      = node :: Tree.preorderAll children := by
    rw [Tree.preorderAll, Tree.preorderAll, List.append_nil, Tree.preorder]
  have hpage : ∀ (kind : StyleKind) i, "page" ≠ kind.className i :=
    StyleKind.ne_className_of_second rfl (by decide)
  have hnode : ∀ (kind : StyleKind) i, "node" ≠ kind.className i :=
    StyleKind.ne_className_of_second rfl (by decide)
  refine ⟨rfl, ?_, ?_⟩
  · have hmem : node ∈ Tree.preorderAll [Tree.node node children] := by
      rw [hforest]
      exact List.mem_cons_self
    exact Node.IsStyleClasses.area.dressed hsheet hmem (by decide) hpage
  -- each box goes with a shown node, and shown nodes are nodes of the frame
  · have hpairs := (List.forall₂_and_left _ _).mpr
      ⟨fun n hn => Node.mem_preorderAll_of_mem_shownAll hn, Node.boxesAll_forall₂ hboxes⟩
    refine hpairs.imp fun n b hb => ?_
    obtain ⟨hid, hclasses⟩ := Node.box_eq_ok hb.2
    have hmem : n ∈ Tree.preorderAll [Tree.node node children] := by
      rw [hforest]
      exact List.mem_cons_of_mem _ hb.1
    rw [hclasses]
    refine ⟨hid, Node.IsStyleClasses.text.dressed hsheet hmem (by decide) hnode, fun htype => ?_⟩
    have htext := textContent?_isSome_of_rootIn hroot (List.mem_cons_of_mem _ hb.1) htype
    obtain ⟨text, htext⟩ := Option.isSome_iff_exists.mp htext
    have hd : n.descriptor? .text = some (.text (.obj text.style)) := Option.map_eq_some_iff.mpr
      ⟨text, htext, rfl⟩
    obtain ⟨i, hi⟩ := Node.exists_classOf? hmem hd
    have hclass := Node.textClass?_eq_some_iff.mpr ⟨_, hd, hi⟩
    rw [Node.IsStyleClasses.text.tokens_eq hmem (by decide)]
    exact ⟨i, List.mem_cons_of_mem _ (List.mem_append_right _ (Option.mem_toList.mpr hclass))⟩

/-- A file with a frame that is filled and holds a text. -/
def greeting : Json :=
  .obj [("document", .obj [("children", .arr [.obj [("children", .arr [.obj [
    ("type", .str "FRAME"), ("name", .str "Frame"),
    ("fills", .arr [.obj [("type", .str "SOLID")]]),
    ("children", .arr [.obj [("type", .str "TEXT"), ("characters", .str "Hi")]])]])]])])]

/-- The greeting is rendered, and its frame and its text have their own look on the page. -/
theorem appearance_of_greeting :
    ∃ rendering root s, ofJson greeting = .ok rendering
      ∧ DesignFile.rootIn greeting = .ok root
      ∧ rendering.page.sections = [s]
      ∧ root.value.Dressed rendering.registry rendering.sheet "page" (tokens s.classes)
      ∧ List.Forall₂ (fun n b => b.id = n.id
          ∧ n.Dressed rendering.registry rendering.sheet "node" (tokens b.classes)
          ∧ (n.type = textKind → ∃ i, StyleKind.text.className i ∈ tokens b.classes))
        (Node.shownAll root.children) (Tree.preorderAll s.boxes) := by
  have hok : (ofJson greeting).isOk = true := by decide +kernel
  cases h : ofJson greeting with
  | error e =>
    rw [h] at hok
    cases hok
  | ok rendering =>
    obtain ⟨root, s, hroot, -, hsections, -, hframe, hboxes⟩ := appearance_of_ofJson h
    exact ⟨rendering, root, s, rfl, hroot, hsections, hframe, hboxes⟩

end Rendering

end FrameExport
