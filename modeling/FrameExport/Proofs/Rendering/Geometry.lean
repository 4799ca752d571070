import FrameExport.Proofs.Double.Exact
import FrameExport.Proofs.MainFrame
import FrameExport.Proofs.Node.Offsets
import FrameExport.Proofs.Page.Numbers
import FrameExport.Proofs.Rendering.Appearance
import FrameExport.Proofs.Stylesheet.Enclosed

/-!
# Finite geometry

The numbers of a design file may be infinite or not be numbers at all, and the difference of two
corners may be too large for a double.  Such values come through to the page and the style sheet.
`Rendering.printsPlain_iff` says exactly when they do not: the frame lies at zero, and all that is
printed of place, size, opacity, corners and borders is a plain decimal, if and only if the numbers
that are looked at are finite (`DesignFile.HasFiniteGeometry`).
-/

namespace FrameExport

open Declaration (DeclarePlain declarePlain_append)

/-! ### What is printed -/

/-- The declarations of a section, of the boxes in it, and of their paragraphs. -/
def Section.declarations (s : Section) : List Declaration :=
  s.style ++ (Tree.preorderAll s.boxes).flatMap fun b =>
    b.style ++ ((b.paragraph.map Paragraph.style).getD [])

/-- Where a rule draws a border, the width of the border is a plain decimal. -/
def Rule.BordersPlain (rule : Rule) : Prop :=
  ∀ d ∈ rule.declarations, d.property = "border" → ∀ cs ∈ d.numbers.head?, IsPlainDecimal cs

/-- Place, size, opacity and corners on the page, and the borders in the style sheet, are printed as
plain decimals. -/
structure Rendering.PrintsPlain (rendering : Rendering) : Prop where
  page : ∀ s ∈ rendering.page.sections, DeclarePlain s.declarations
  sheet : ∀ rule ∈ Stylesheet.globalRules ++ rendering.sheet.rules, rule.BordersPlain

/-! ### Numbers of the file -/

namespace SourceNode

/-- Size and radii of a node are finite; a node has no more than four radii. -/
structure HasFiniteSize (n : SourceNode) : Prop where
  width : (n.bounds.getD .empty).width.isFinite = true
  height : (n.bounds.getD .empty).height.isFinite = true
  radius : ∀ r ∈ n.cornerRadius, r.isFinite = true
  radii : ∀ rs ∈ n.cornerRadii, ∀ r ∈ rs.take 4, r.isFinite = true

/-- Beside its parent a node has finite offsets, and its size, radii and opacity are finite. -/
structure HasFiniteBox (parent n : SourceNode) : Prop extends n.HasFiniteSize where
  x : n.origin.1.HasFiniteDifference parent.origin.1
  y : n.origin.2.HasFiniteDifference parent.origin.2
  opacity : ∀ x ∈ n.opacity, x.isFinite = true

mutual

/-- The nodes of a tree that get a box, each with its parent. -/
def shown (parent : SourceNode) : Tree SourceNode → List (SourceNode × SourceNode)
  | .node n children => (parent, n) :: if n.type = textKind then [] else shownAll n children

/-- The nodes of several trees that get a box, each with its parent. -/
def shownAll (parent : SourceNode) : List (Tree SourceNode) → List (SourceNode × SourceNode)
  | [] => []
  | t :: ts => shown parent t ++ shownAll parent ts

end

end SourceNode

namespace DesignFile

/-- All numbers of a frame that are looked at are finite: its corner, its size and radii, the boxes
of the nodes that get one, and the weights of visible strokes. -/
structure HasFiniteGeometry (frame : Tree SourceNode) : Prop where
  x : frame.value.origin.1.isFinite = true
  y : frame.value.origin.2.isFinite = true
  size : frame.value.HasFiniteSize
  boxes : ∀ p ∈ SourceNode.shownAll frame.value frame.children,
    SourceNode.HasFiniteBox p.1 p.2
  strokes : ∀ n ∈ frame.preorder, (Paint.firstVisible n.strokes).isSome →
    ∀ weight ∈ n.strokeWeight, weight.isFinite = true

end DesignFile

/-! ### Placed nodes -/

namespace Node

variable {source parent : SourceNode}

theorem isText_ofSource (x y : Double) (source : SourceNode) :
    (ofSource x y source).isText = decide (source.type = textKind) := by
  have htype : (ofSource x y source).type = source.type := rfl
  rw [isText, textContent?, htype]
  split
  · rename_i h
    have htext : (ofSource x y source).text = textOf source := rfl
    rw [htext, textOf, if_pos h, decide_eq_true h]
    rfl
  · rename_i h
    rw [decide_eq_false h]
    rfl

mutual

/-- The placed nodes that get a box are the nodes that do, each as seen from its parent. -/
theorem shown_place (parent : SourceNode) : ∀ t : Tree SourceNode,
    shown (place parent.origin.1 parent.origin.2 t)
      = (SourceNode.shown parent t).map fun p => ofSource p.1.origin.1 p.1.origin.2 p.2
  | .node source children => by
    rw [place, shown, SourceNode.shown, List.map_cons, isText_ofSource]
    by_cases htext : source.type = textKind
    · rw [decide_eq_true htext, if_pos rfl, if_pos htext]
      rfl
    · rw [decide_eq_false htext, if_neg Bool.false_ne_true, if_neg htext,
        shownAll_placeAll source children]

theorem shownAll_placeAll (parent : SourceNode) : ∀ ts : List (Tree SourceNode),
    shownAll (placeAll parent.origin.1 parent.origin.2 ts)
      = (SourceNode.shownAll parent ts).map fun p => ofSource p.1.origin.1 p.1.origin.2 p.2
  | [] => rfl
  | t :: ts => by
    rw [placeAll, shownAll, SourceNode.shownAll, List.map_append, shown_place parent t,
      shownAll_placeAll parent ts]

end

/-- The first four radii of a list are those that count. -/
theorem forall_toList_ofList {P : Double → Prop} (hzero : P .zero) (rs : List Double) :
    (∀ r ∈ (CornerRadii.ofList rs).toList, P r) ↔ ∀ r ∈ rs.take 4, P r := by
  rw [CornerRadii.toList_ofList, List.take_append, List.forall_mem_append]
  refine and_iff_left fun r hr => ?_
  -- what is filled in is zero
  rw [List.eq_of_mem_replicate (List.mem_of_mem_take hr)]
  exact hzero

/-- Size and radii of a placed node are those of the node of the file. -/
theorem isFinite_size_iff (x y : Double) (source : SourceNode) :
    (∀ z ∈ [(ofSource x y source).width, (ofSource x y source).height]
        ++ (ofSource x y source).radii, z.isFinite = true) ↔ source.HasFiniteSize := by
  have hradius : (∀ r ∈ source.cornerRadius.toList, r.isFinite = true)
      ↔ ∀ r ∈ source.cornerRadius, r.isFinite = true := by
    simp only [Option.mem_toList, Option.mem_def]
  have hradii : (∀ r ∈ ((source.cornerRadii.map CornerRadii.ofList).map CornerRadii.toList).getD [],
      r.isFinite = true) ↔ ∀ rs ∈ source.cornerRadii, ∀ r ∈ rs.take 4, r.isFinite = true := by
    cases source.cornerRadii with
    | none => simp
    | some rs => simpa using forall_toList_ofList Double.isFinite_zero rs
  rw [List.forall_mem_append, List.forall_mem_cons, List.forall_mem_singleton, radii,
    List.forall_mem_append]
  constructor
  · rintro ⟨⟨hwidth, hheight⟩, hr, hrs⟩
    exact ⟨hwidth, hheight, hradius.mp hr, hradii.mp hrs⟩
  · rintro ⟨hwidth, hheight, hr, hrs⟩
    exact ⟨⟨hwidth, hheight⟩, hradius.mpr hr, hradii.mpr hrs⟩

/-- What a box prints of a placed node is finite exactly if the box of the node is. -/
theorem isFinite_box_iff {n : Node}
    (hn : n = ofSource parent.origin.1 parent.origin.2 source) :
    (∀ z ∈ [n.x, n.y, n.width, n.height, n.opacity] ++ n.radii, z.isFinite = true)
      ↔ SourceNode.HasFiniteBox parent source := by
  have hsize := isFinite_size_iff parent.origin.1 parent.origin.2 source
  have hopacity : n.opacity.isFinite = true ↔ ∀ x ∈ source.opacity, x.isFinite = true := by
    have hone : Double.one.isFinite = true := by decide +kernel
    rw [hn]
    show (source.opacity.getD .one).isFinite = true ↔ _
    cases source.opacity with
    | none => simp [hone]
    | some x => simp
  rw [← hn] at hsize
  have hx : n.x.isFinite = true ↔ source.origin.1.HasFiniteDifference parent.origin.1 := by
    rw [hn]
    exact Double.isFinite_sub_iff
  have hy : n.y.isFinite = true ↔ source.origin.2.HasFiniteDifference parent.origin.2 := by
    rw [hn]
    exact Double.isFinite_sub_iff
  simp only [List.cons_append, List.nil_append, List.forall_mem_cons] at hsize ⊢
  constructor
  · rintro ⟨hx', hy', hwidth, hheight, hopacity', hradii⟩
    exact ⟨hsize.mp ⟨hwidth, hheight, hradii⟩, hx.mp hx', hy.mp hy', hopacity.mp hopacity'⟩
  · rintro ⟨h, hx', hy', hopacity'⟩
    obtain ⟨hwidth, hheight, hradii⟩ := hsize.mpr h
    exact ⟨hx.mpr hx', hy.mpr hy', hwidth, hheight, hopacity.mpr hopacity', hradii⟩

end Node

/-! ### Sections -/

/-- A section prints plain decimals exactly if the size and the radii of its node and all numbers of
the nodes that get a box in it are finite. -/
theorem Section.declarePlain_declarations_iff {registry : StyleRegistry} {root : Tree Node}
    {s : Section} (h : Node.pageSection registry root = .ok s) :
    DeclarePlain s.declarations
      ↔ (∀ z ∈ [root.value.width, root.value.height] ++ root.value.radii, z.isFinite = true)
        ∧ ∀ n ∈ Node.shownAll root.children,
          ∀ z ∈ [n.x, n.y, n.width, n.height, n.opacity] ++ n.radii, z.isFinite = true := by
  obtain ⟨boxes, hboxes, h⟩ := bind_eq_ok_iff.mp h
  obtain rfl := Except.ok.inj h
  rw [declarations, declarePlain_append, Node.declarePlain_sectionDeclarations_iff]
  refine and_congr_right fun _ => ?_
  rw [DeclarePlain, List.forall_mem_flatMap]
  refine (forall_mem_congr_of_forall₂ (Node.boxesAll_forall₂ hboxes) fun n b hb => ?_).symm
  have hparagraph : DeclarePlain ((b.paragraph.map Paragraph.style).getD []) := by
    rcases Node.box_cases hb with ⟨-, -, hnone⟩ | ⟨text, p, -, hp, -, hsome⟩
    · rw [hnone]
      exact Declaration.declarePlain_nil
    · rw [hsome]
      exact Node.declarePlain_paragraph hp
  exact (Node.declarePlain_box_iff hb).symm.trans
    ((and_iff_left hparagraph).symm.trans declarePlain_append.symm)

/-! ### Borders -/

namespace Stylesheet

variable {kind : StyleKind} {entry : StyleEntry} {rule : Rule} {sheet : Stylesheet}
  {forest : List (Tree Node)}

/-- Only the rules of strokes draw borders, and their width is a plain decimal exactly if the weight
is finite. -/
theorem bordersPlain_iff {weight : Double} (h : entryRule .stroke entry = .ok rule)
    (hweight : entry.weight = .double weight) :
    rule.BordersPlain ↔ weight.isFinite = true := by
  rcases declarations_cases h with ⟨hkind, -⟩ | ⟨hkind, -⟩ | ⟨hkind, -⟩ | ⟨-, color, hds⟩
  · cases hkind
  · cases hkind
  · cases hkind
  · have hpixels : Typography.pixels entry.weight = Node.pixels weight := by rw [hweight, Node.pixels]
    rw [Rule.BordersPlain, hds, List.forall_mem_singleton, hpixels,
      Node.head?_numbers_line "border" weight color.text]
    simp only [forall_true_left, Option.mem_def, Option.some.injEq, forall_eq']
    exact Double.isPlainDecimal_writePlain_iff

theorem bordersPlain_of_ne_stroke (h : entryRule kind entry = .ok rule) (hkind : kind ≠ .stroke) :
    rule.BordersPlain := by
  have hproperty : "border" ∉ kind.properties := by
    cases kind with
    | stroke => exact absurd rfl hkind
    | _ => decide
  intro d hd hborder
  exact absurd (hborder ▸ (sublist_properties h).subset (List.mem_map_of_mem hd)) hproperty

/-- The rules that every style sheet begins with draw no borders. -/
theorem bordersPlain_globalRules : ∀ rule ∈ globalRules, rule.BordersPlain := by
  intro rule hrule d hd hborder
  have hnone : ∀ rule ∈ globalRules, ∀ d ∈ rule.declarations, d.property ≠ "border" := by decide
  exact absurd hborder (hnone rule hrule d hd)

theorem exists_weight (h : entry ∈ ((StyleRegistry.ofForest forest).table .stroke).entries) :
    ∃ weight, entry.weight = .double weight := by
  obtain ⟨i, d, hd, rfl⟩ := StyleRegistry.mem_entries_ofForest.mp h
  obtain ⟨n, -, hn⟩ := StyleRegistry.exists_node_of_mem (List.mem_of_getElem? hd)
  obtain ⟨paint, weight, -, -, rfl⟩ := Node.mem_strokeDescriptor?.mp hn
  exact ⟨weight, rfl⟩

/-- The borders in the style sheet of a forest are plain decimals exactly if the weights of visible
strokes are finite. -/
theorem bordersPlain_rules_iff (h : ofRegistry (.ofForest forest) = .ok sheet) :
    (∀ rule ∈ sheet.rules, rule.BordersPlain)
      ↔ ∀ n ∈ Tree.preorderAll forest, ∀ paint weight, Paint.firstVisible n.strokes = some paint →
        n.visibleWeight? = some weight → weight.isFinite = true := by
  have hrules := forall_mem_congr_of_forall₂ (rules_forall₂ h)
    (P := fun entry => entry ∈ ((StyleRegistry.ofForest forest).table .stroke).entries →
      ∀ w, entry.weight = .double w → w.isFinite = true) (Q := Rule.BordersPlain) <| by
    rintro entry rule ⟨kind, hentry, hrule⟩
    by_cases hkind : kind = .stroke
    · subst hkind
      obtain ⟨weight, hweight⟩ := exists_weight hentry
      rw [bordersPlain_iff hrule hweight, hweight, forall_prop_of_true hentry]
      simp only [Json.double.injEq, forall_eq']
    -- no entry is in two tables
    · exact iff_of_true
        (fun hstroke => absurd (StyleRegistry.kind_eq_of_className hentry hstroke rfl) hkind)
        (bordersPlain_of_ne_stroke hrule hkind)
  have hweights := StyleRegistry.forall_entries_iff .stroke forest
    (P := fun _ weight => ∀ w, weight = .double w → w.isFinite = true) fun _ _ _ _ => Iff.rfl
  rw [← hrules]
  constructor
  · intro hall n hn paint weight hpaint hweight
    exact hweights.mp
      (fun entry hentry => hall entry (StyleRegistry.mem_entries.mpr ⟨.stroke, hentry⟩) hentry)
      n hn _ (Node.mem_strokeDescriptor?.mpr ⟨paint, weight, hpaint, hweight, rfl⟩) weight rfl
  · intro hall entry _ hentry
    refine hweights.mpr ?_ entry hentry
    intro n hn d hd w hw
    obtain ⟨paint, weight, hpaint, hweight, rfl⟩ := Node.mem_strokeDescriptor?.mp hd
    obtain rfl := Json.double.inj hw
    exact hall n hn paint weight hpaint hweight

end Stylesheet

/-! ### Renderings -/

namespace DesignFile

variable {frame : Tree SourceNode}

/-- The frame lies at zero exactly if its corner is finite. -/
theorem root_eq_zero_iff :
    ((root frame).value.x = .zero ∧ (root frame).value.y = .zero)
      ↔ frame.value.origin.1.isFinite = true ∧ frame.value.origin.2.isFinite = true := by
  obtain ⟨value, children⟩ := frame
  exact and_congr Double.sub_self_eq_zero_iff Double.sub_self_eq_zero_iff

/-- What is printed of the size and the radii of the placed frame is finite exactly if they are. -/
theorem isFinite_size_iff :
    (∀ z ∈ [(root frame).value.width, (root frame).value.height] ++ (root frame).value.radii,
      z.isFinite = true) ↔ frame.value.HasFiniteSize := by
  obtain ⟨value, children⟩ := frame
  exact Node.isFinite_size_iff _ _ value

/-- What is printed of the placed nodes is finite exactly if the boxes that they get are. -/
theorem isFinite_boxes_iff :
    (∀ n ∈ Node.shownAll (root frame).children,
        ∀ z ∈ [n.x, n.y, n.width, n.height, n.opacity] ++ n.radii, z.isFinite = true)
      ↔ ∀ p ∈ SourceNode.shownAll frame.value frame.children,
        SourceNode.HasFiniteBox p.1 p.2 := by
  obtain ⟨value, children⟩ := frame
  show (∀ n ∈ Node.shownAll (Node.placeAll value.origin.1 value.origin.2 children), _) ↔ _
  rw [Node.shownAll_placeAll, List.forall_mem_map]
  exact forall₂_congr fun p _ => Node.isFinite_box_iff rfl

/-- The weights of visible strokes of placed nodes are those of the nodes of the file; a weight that
is left out is zero. -/
theorem isFinite_weights_iff :
    (∀ n ∈ (root frame).preorder, ∀ paint weight, Paint.firstVisible n.strokes = some paint →
        n.visibleWeight? = some weight → weight.isFinite = true)
      ↔ ∀ n ∈ frame.preorder, (Paint.firstVisible n.strokes).isSome →
        ∀ weight ∈ n.strokeWeight, weight.isFinite = true := by
  refine Node.forall_preorder_place_iff (fun x y source => ?_) _ _ frame
  constructor
  · intro h hsome weight hweight
    obtain ⟨paint, hpaint⟩ := Option.isSome_iff_exists.mp hsome
    cases hzero : weight.isZero with
    | true =>
      cases weight with
      | finite negative r => rfl
      | _ => cases hzero
    | false => exact h paint weight hpaint (Node.visibleWeight?_eq_some_iff.mpr ⟨hweight, hzero⟩)
  · intro h paint weight hpaint hweight
    exact h (Option.isSome_iff_exists.mpr ⟨paint, hpaint⟩) weight
      (Node.visibleWeight?_eq_some_iff.mp hweight).1

end DesignFile

namespace Rendering

variable {file : Json} {rendering : Rendering} {design : DesignFile} {frame : Tree SourceNode}

/-- **Finite geometry.**  The frame of a rendered file lies at zero, and place, size, opacity, corners
and borders are printed as plain decimals, if and only if the numbers of the frame that are looked at
are finite, the offsets of its nodes among them. -/
theorem printsPlain_iff (h : ofJson file = .ok rendering) (hread : DesignFile.read file = .ok design)
    (hframe : design.frame = .ok frame) :
    DesignFile.rootIn file = .ok (DesignFile.root frame) ∧
      (((DesignFile.root frame).value.x = .zero ∧ (DesignFile.root frame).value.y = .zero ∧
          rendering.PrintsPlain)
        ↔ DesignFile.HasFiniteGeometry frame) := by
  have hroot := DesignFile.rootIn_of_frame hread hframe
  obtain ⟨root, s, hroot', hregistry, hsheet, hsections, hs⟩ := exists_of_ofJson h
  obtain rfl : DesignFile.root frame = root := Except.ok.inj (hroot.symm.trans hroot')
  rw [hregistry] at hsheet
  have hpage := Section.declarePlain_declarations_iff hs
  rw [DesignFile.isFinite_size_iff, DesignFile.isFinite_boxes_iff] at hpage
  have hborders := Stylesheet.bordersPlain_rules_iff hsheet
  rw [Tree.preorderAll_singleton, DesignFile.isFinite_weights_iff] at hborders
  refine ⟨hroot, ?_, ?_⟩
  · rintro ⟨hx, hy, hplain⟩
    obtain ⟨hcornerX, hcornerY⟩ := DesignFile.root_eq_zero_iff.mp ⟨hx, hy⟩
    obtain ⟨hsize, hboxes⟩ := hpage.mp (hplain.page s (hsections ▸ List.mem_singleton_self s))
    have hsheet := (List.forall_mem_append.mp hplain.sheet).2
    exact ⟨hcornerX, hcornerY, hsize, hboxes, hborders.mp hsheet⟩
  · intro hfinite
    obtain ⟨hx, hy⟩ := DesignFile.root_eq_zero_iff.mpr ⟨hfinite.x, hfinite.y⟩
    refine ⟨hx, hy, ?_, ?_⟩
    · rw [hsections, List.forall_mem_singleton]
      exact hpage.mpr ⟨hfinite.size, hfinite.boxes⟩
    · exact List.forall_mem_append.mpr
        ⟨Stylesheet.bordersPlain_globalRules, hborders.mpr hfinite.strokes⟩

/-- With a frame at one and a node at one half in it all numbers are plain decimals. -/
theorem printsPlain_nested :
    ∃ rendering, ofJson (DesignFile.nested .one .half) = .ok rendering ∧ rendering.PrintsPlain := by
  have hok : (ofJson (DesignFile.nested .one .half)).isOk = true := by decide +kernel
  obtain ⟨rendering, h⟩ := returns_of_isOk hok
  have hcorner : Double.one.isFinite = true := by decide +kernel
  have houter : (Double.zero - .one).isFinite = true := by decide +kernel
  have hinner : (Double.half - .zero).isFinite = true := by decide +kernel
  have hzero := Double.isFinite_zero
  generalize Double.one = x at *
  generalize Double.half = y at *
  refine ⟨rendering, h, ((printsPlain_iff h rfl rfl).2.mpr ⟨hcorner, hcorner, ?_, ?_, ?_⟩).2.2⟩
  · exact ⟨hzero, hzero, nofun, nofun⟩
  · intro p hp
    rcases hp with _ | ⟨_, _ | ⟨_, hnone⟩⟩
    · exact ⟨⟨hzero, hzero, nofun, nofun⟩, Double.isFinite_sub_iff.mp houter,
        Double.isFinite_sub_iff.mp houter, nofun⟩
    · exact ⟨⟨hzero, hzero, nofun, nofun⟩, Double.isFinite_sub_iff.mp hinner,
        Double.isFinite_sub_iff.mp hinner, nofun⟩
    · cases hnone
  · intro n hn hvisible
    rcases hn with _ | ⟨_, _ | ⟨_, _ | ⟨_, hnone⟩⟩⟩
    · cases hvisible
    · cases hvisible
    · cases hvisible
    · cases hnone

/-- A frame at infinity that is infinitely wide. -/
def infiniteFrame : Json :=
  fileOfFrame [("type", .str "FRAME"), ("name", .str "Frame"),
    ("absoluteBoundingBox", .obj
      [("x", .double (.infinite false)), ("width", .double (.infinite false))])]

/-- The frame at infinity is rendered, although it does not lie at zero; its width is printed as
`infpx`. -/
theorem ofJson_infiniteFrame :
    ∃ rendering root s, ofJson infiniteFrame = .ok rendering
      ∧ DesignFile.rootIn infiniteFrame = .ok root ∧ root.value.x = .nan
      ∧ ¬ (root.value.x = .zero ∧ root.value.y = .zero)
      ∧ rendering.page.sections = [s] ∧ ⟨"width", "infpx"⟩ ∈ s.style ∧ ¬ rendering.PrintsPlain := by
  have hok : (ofJson infiniteFrame).isOk = true := by decide +kernel
  obtain ⟨rendering, h⟩ := returns_of_isOk hok
  obtain ⟨root, s, hroot, -, -, hsections, hs⟩ := exists_of_ofJson h
  obtain ⟨hx, hwidth⟩ : root.value.x = .nan ∧ root.value.width = .infinite false := by
    obtain rfl := Except.ok.inj hroot
    exact ⟨rfl, rfl⟩
  have hstyle : ⟨"width", "infpx"⟩ ∈ s.style := by
    obtain ⟨boxes, -, hs⟩ := bind_eq_ok_iff.mp hs
    obtain rfl := Except.ok.inj hs
    show _ ∈ root.value.sectionDeclarations
    rw [Node.sectionDeclarations, hwidth]
    exact List.mem_append_left _ List.mem_cons_self
  refine ⟨rendering, root, s, h, hroot, hx, ?_, hsections, hstyle, fun hplain => ?_⟩
  · rintro ⟨hzero, -⟩
    have hfinite := Double.isFinite_zero
    rw [← hzero, hx] at hfinite
    cases hfinite
  · have hpage := (declarePlain_append.mp (hplain.page s (hsections ▸ List.mem_singleton_self s))).1
    have hword := hpage _ hstyle (by decide) "inf".toList (by decide)
    exact absurd (hword.mem (c := 'i') (by decide)) (by decide)

end Rendering

end FrameExport
