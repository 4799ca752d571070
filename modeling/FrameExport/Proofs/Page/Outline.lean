import FrameExport.Proofs.Page.Declarations
import FrameExport.Proofs.Tree

/-!
# A page read back

`PageOutline.read` reads the text of a page: the title, and for every section the identifier of its
root and the trees of its boxes, each with its identifier, its place and size, and its paragraphs.
It accepts nothing but sections in the body, and in these nothing but boxes, paragraphs and blanks.

The headline is `read_text`: what is read is the forest, down to the texts.  Characters and
identifiers may be anything.  The page has to be one that can be made, which is so exactly if the
colours of the shown texts can be used; and the metrics of texts must be null, truth values or
numbers, since other values are written into attributes as they are.
-/

namespace FrameExport

open Markup
open Text (isSpace Blank)

/-- What the markup tells of a node. -/
structure Outline where
  id : String
  left : String
  top : String
  width : String
  height : String
  paragraphs : List String
deriving DecidableEq, Repr

/-- What the markup tells of a root and the nodes below it. -/
structure SectionOutline where
  id : String
  boxes : List (Tree Outline)
deriving Repr

/-- What the markup tells of a page. -/
structure PageOutline where
  title : String
  sections : List SectionOutline
deriving Repr

/-! ### Attributes -/

namespace Markup

/-- The value of an attribute. -/
def attribute? (attributes : List (List Char × List Char)) (name : String) : Option (List Char) :=
  (attributes.lookup name.toList).map unescape

/-- The property in front of the first colon, and the value behind it. -/
def splitDeclaration (cs : List Char) : List Char × List Char :=
  (cs.takeWhile (· ≠ ':'), (cs.dropWhile (· ≠ ':')).drop 1)

/-- The value that a property has in an attribute, if it is declared once. -/
def declared? (style : List Char) (property : String) : Option (List Char) :=
  match ((style.splitOn ';').map splitDeclaration).filter (·.1 = property.toList) with
  | [d] => some d.2
  | _ => none

/-- The length in pixels that a property has in an attribute. -/
def length? (style : List Char) (property : String) : Option String :=
  ((declared? style property).bind ("px".toList.isSuffixOf? ·)).map String.ofList

end Markup

/-- The outline that attributes give, with the paragraphs that were found in the element. -/
def Outline.ofAttributes? (attributes : List (List Char × List Char)) (paragraphs : List String) :
    Option Outline := do
  let id ← attribute? attributes "id"
  let style ← attribute? attributes "style"
  return {
    id := String.ofList (← "node-".toList.isPrefixOf? id)
    left := ← length? style "left"
    top := ← length? style "top"
    width := ← length? style "width"
    height := ← length? style "height"
    paragraphs }

/-! ### Elements -/

/-- The paragraphs and the boxes in an element. -/
structure Inside where
  paragraphs : List String
  boxes : List (Tree Outline)
deriving Repr

namespace Inside

/-- What lies in an element with nothing in it. -/
def nothing : Inside := ⟨[], []⟩

/-- What lies in an element in two parts. -/
def append (a b : Inside) : Inside := ⟨a.paragraphs ++ b.paragraphs, a.boxes ++ b.boxes⟩

end Inside

namespace Markup

/-- The characters of contents without elements. -/
def characters? (vs : List Content) : Option (List Char) :=
  vs.mapM fun
    | .char c => some c
    | _ => none

mutual

/-- A box, a paragraph or a blank; nothing else is read. -/
def inside? : Content → Option Inside
  | .char c => if isSpace c then some .nothing else none
  | .remark => none
  | .element name attributes contents =>
    if name = "p".toList then
      (characters? contents).map fun cs => ⟨[String.ofList (unescape cs)], []⟩
    else if name = "div".toList then do
      let inside ← insideAll? contents
      let outline ← Outline.ofAttributes? attributes inside.paragraphs
      return ⟨[], [.node outline inside.boxes]⟩
    else none

/-- Boxes and paragraphs with blanks between them. -/
def insideAll? : List Content → Option Inside
  | [] => some .nothing
  | v :: vs => do
    let first ← inside? v
    return first.append (← insideAll? vs)

end

/-- Sections with blanks between them. -/
def sections? : List Content → Option (List SectionOutline)
  | [] => some []
  | .char c :: vs => if isSpace c then sections? vs else none
  | .remark :: _ => none
  | .element name attributes contents :: vs =>
    if name = "section".toList then do
      let id ← attribute? attributes "id"
      let inside ← insideAll? contents
      if inside.paragraphs.isEmpty then
        return ⟨String.ofList (← "page-".toList.isPrefixOf? id), inside.boxes⟩
          :: (← sections? vs)
      else none
    else none

/-- What the only element of a name holds. -/
def held? (name : String) (vs : List Content) : Option (List Content) :=
  match vs.filterMap fun
      | .element n _ contents => if n = name.toList then some contents else none
      | _ => none with
  | [contents] => some contents
  | _ => none

end Markup

/-- The page that a text holds. -/
def PageOutline.read (text : String) : Option PageOutline := do
  let html ← held? "html" (← contents? text.toList)
  let title ← held? "title" (← held? "head" html)
  let body ← held? "body" html
  return ⟨String.ofList (unescape (← characters? title)), ← sections? body⟩

/-! ### What should be read -/

namespace Node

/-- The outline of a node. -/
def outline (n : Node) : Outline where
  id := n.id
  left := String.ofList n.x.writePlain
  top := String.ofList n.y.writePlain
  width := String.ofList n.width.writePlain
  height := String.ofList n.height.writePlain
  paragraphs := (n.textContent?.map TextContent.characters).toList

mutual

/-- The outlines of a node and of those below it; nothing below a text is shown. -/
def outlineTree : Tree Node → Tree Outline
  | .node n children => .node n.outline (if n.isText then [] else outlineAll children)

/-- The outlines of several trees. -/
def outlineAll : List (Tree Node) → List (Tree Outline)
  | [] => []
  | t :: ts => outlineTree t :: outlineAll ts

end

/-- The outline of a root. -/
def sectionOutline (root : Tree Node) : SectionOutline :=
  ⟨root.value.id, outlineAll root.children⟩

end Node

/-! ### Declarations -/

namespace Markup

variable {ds more : List Declaration} {d : Declaration}

theorem splitDeclaration_eq {property value : List Char} (h : ':' ∉ property) :
    splitDeclaration (property ++ ':' :: value) = (property, value) := by
  have hall : ∀ c ∈ property, (decide (c ≠ ':')) = true := by
    intro c hc
    exact decide_eq_true fun heq => h (heq ▸ hc)
  rw [splitDeclaration, List.takeWhile_append_of_pos hall, List.dropWhile_append_of_pos hall]
  simp

/-- Plain declarations are found one by one between the semicolons, and nothing behind the last. -/
theorem map_splitDeclaration_writeAll (h : ∀ d ∈ ds, d.Plain) :
    ((Declaration.writeAll ds).splitOn ';').map splitDeclaration
      = ds.map (fun d => (d.property.toList, d.value.toList)) ++ [([], [])] := by
  induction ds with
  | nil => rfl
  | cons d ds ih =>
    rw [List.forall_mem_cons] at h
    obtain ⟨⟨hproperty, hvalue⟩, hrest⟩ := h
    have hcolon : ':' ∉ d.property.toList := hproperty.plain.notMem (by decide)
    have hsemicolon : ';' ∉ d.property.toList ++ ':' :: d.value.toList := by
      rw [List.mem_append, List.mem_cons, not_or, not_or]
      exact ⟨hproperty.plain.notMem (by decide), by decide, hvalue.notMem (by decide)⟩
    have hwrite : Declaration.writeAll (d :: ds)
        = (d.property.toList ++ ':' :: d.value.toList) ++ ';' :: Declaration.writeAll ds := by
      simp [Declaration.writeAll, Declaration.write]
    rw [hwrite, List.splitOn_append_cons_self_of_not_mem hsemicolon, List.map_cons,
      splitDeclaration_eq hcolon, ih hrest]
    rfl

/-- What is declared once has the value that it is given. -/
theorem declared?_eq {property value : String} (hds : ∀ d ∈ ds, d.Plain)
    (hproperty : property.toList ≠ [])
    (hfilter : ds.filter (fun d => d.property = property) = [⟨property, value⟩]) :
    declared? (Declaration.writeAll ds) property = some value.toList := by
  have hone : (ds.map fun d => (d.property.toList, d.value.toList)).filter
      (fun d => d.1 = property.toList) = [(property.toList, value.toList)] := by
    rw [List.filter_map]
    have hsame : ((fun d : List Char × List Char => decide (d.1 = property.toList))
        ∘ fun d : Declaration => (d.property.toList, d.value.toList))
        = fun d => decide (d.property = property) := by
      funext d
      simp [String.toList_inj]
    rw [hsame, hfilter]
    rfl
  have hlast : [(([] : List Char), ([] : List Char))].filter (fun d => d.1 = property.toList) = [] :=
    List.filter_cons_of_neg (by simpa using Ne.symm hproperty)
  rw [declared?, map_splitDeclaration_writeAll hds, List.filter_append, hone, hlast,
    List.append_nil]

/-- The lengths of a box are declared once, whatever else is declared. -/
theorem length?_eq {property : String} {x : Double} (hds : ∀ d ∈ ds, d.Plain)
    (hproperty : property.toList ≠ [])
    (hfilter : ds.filter (fun d => d.property = property) = [⟨property, Node.pixels x⟩]) :
    length? (Declaration.writeAll ds) property = some (String.ofList x.writePlain) := by
  have hpixels : (Node.pixels x).toList = x.writePlain ++ "px".toList := by
    rw [Node.pixels, Typography.pixels, String.toList_ofList]
    rfl
  have hsuffix : "px".toList.isSuffixOf? (x.writePlain ++ "px".toList) = some x.writePlain :=
    List.isSuffixOf?_eq_some_iff_append_eq.mpr rfl
  rw [length?, declared?_eq hds hproperty hfilter, Option.bind_some, hpixels, hsuffix]
  rfl

end Markup

namespace Node

variable {registry : StyleRegistry} {n : Node}

/-- The properties of place and size. -/
def placeProperties : List String := ["left", "top", "width", "height"]

/-- Beside its place and size, a box declares neither again. -/
theorem property_notMem_placeProperties {d : Declaration}
    (hd : d ∈ n.opacityDeclarations ++ n.radiusDeclarations ++ centring) :
    d.property ∉ placeProperties := by
  rw [List.mem_append, List.mem_append] at hd
  rcases hd with (hd | hd) | hd
  · unfold opacityDeclarations at hd
    split at hd
    · cases hd
    · rw [List.mem_singleton.mp hd]
      exact (by decide : "opacity" ∉ placeProperties)
  · have hradius : "border-radius" ∉ placeProperties := by decide
    rw [radiusDeclarations, List.mem_append, Option.mem_toList, Option.mem_toList,
      Option.map_eq_some_iff, Option.map_eq_some_iff] at hd
    rcases hd with ⟨r, -, rfl⟩ | ⟨rs, -, rfl⟩
    · exact hradius
    · exact hradius
  · revert d
    decide

/-- The style of a box: place and size, and then nothing that declares them again. -/
theorem exists_style_of_box {b : Box} (h : n.box registry = .ok b) :
    ∃ more, b.style = [⟨"left", pixels n.x⟩, ⟨"top", pixels n.y⟩, ⟨"width", pixels n.width⟩,
        ⟨"height", pixels n.height⟩] ++ more
      ∧ (∀ d ∈ b.style, d.Plain) ∧ ∀ d ∈ more, d.property ∉ placeProperties := by
  have hcentring : ∀ d ∈ centring, d.Plain := by decide
  rcases box_cases h with ⟨-, hstyle, -⟩ | ⟨text, p, -, -, hstyle, -⟩
  · refine ⟨n.opacityDeclarations ++ n.radiusDeclarations, ?_, ?_, fun d hd => ?_⟩
    · rw [hstyle, boxDeclarations, List.append_assoc]
    · rw [hstyle]
      exact n.plain_boxDeclarations
    · exact property_notMem_placeProperties (List.mem_append_left _ hd)
  · refine ⟨n.opacityDeclarations ++ n.radiusDeclarations ++ centring, ?_, ?_, fun d hd => ?_⟩
    · simp only [hstyle, boxDeclarations, List.append_assoc]
    · rw [hstyle, List.forall_mem_append]
      exact ⟨n.plain_boxDeclarations, hcentring⟩
    · exact property_notMem_placeProperties hd

/-- The attributes of the box of a node give the outline of the node. -/
theorem ofAttributes?_attributes {b : Box} (h : n.box registry = .ok b) (paragraphs : List String) :
    Outline.ofAttributes? b.attributes paragraphs
      = some { n.outline with paragraphs := paragraphs } := by
  obtain ⟨more, hstyle, hplain, hmore⟩ := exists_style_of_box h
  have hnone : ∀ property ∈ placeProperties, more.filter (fun d => d.property = property) = [] := by
    intro property hproperty
    rw [List.filter_eq_nil_iff]
    intro d hd heq
    rw [decide_eq_true_eq] at heq
    exact hmore d hd (heq ▸ hproperty)
  have hlength : ∀ property x, property ∈ placeProperties →
      b.style.filter (fun d => d.property = property) = [⟨property, pixels x⟩] →
      length? (Declaration.writeAll b.style) property = some (String.ofList x.writePlain) := by
    intro property x hproperty hfilter
    have hnonempty : ∀ p ∈ placeProperties, p.toList ≠ [] := by decide
    exact length?_eq hplain (hnonempty property hproperty) hfilter
  have hid : attribute? b.attributes "id" = some ("node-".toList ++ n.id.toList) := by
    have hlookup : attribute? b.attributes "id"
        = some (unescape ("node-".toList ++ escapeQuoted b.id)) := rfl
    have hprefix : unescape ("node-".toList ++ escapeQuoted b.id)
        = "node-".toList ++ unescape (escapeQuoted b.id) := rfl
    rw [hlookup, hprefix, unescape_escapeQuoted, (box_eq_ok h).1]
  have hstyles : attribute? b.attributes "style" = some (Declaration.writeAll b.style) := by
    have hlookup : attribute? b.attributes "style"
        = some (unescape (Declaration.writeAll b.style)) := rfl
    rw [hlookup, unescape_of_notMem
      (Declaration.notMem_writeAll hplain (by decide) (by decide) (by decide))]
  have hprefix : "node-".toList.isPrefixOf? ("node-".toList ++ n.id.toList) = some n.id.toList :=
    List.isPrefixOf?_eq_some_iff_append_eq.mpr rfl
  rw [Outline.ofAttributes?, hid, hstyles]
  simp only [Option.bind_eq_bind, Option.bind_some, hprefix, String.ofList_toList]
  rw [hlength "left" n.x (by decide) ?_, hlength "top" n.y (by decide) ?_,
    hlength "width" n.width (by decide) ?_, hlength "height" n.height (by decide) ?_]
  · rfl
  all_goals
    rw [hstyle, List.filter_append, hnone _ (by decide), List.append_nil]
    rfl

end Node

/-! ### Contents -/

namespace Markup

variable {vs ws : List Content} {v : Content} {a b : Inside}

theorem insideAll?_append (h : insideAll? vs = some a) (h' : insideAll? ws = some b) :
    insideAll? (vs ++ ws) = some (a.append b) := by
  induction vs generalizing a with
  | nil =>
    rw [← Option.some.inj h]
    exact h'
  | cons v vs ih =>
    rw [insideAll?] at h
    obtain ⟨first, hfirst, h⟩ := Option.bind_eq_some_iff.mp h
    obtain ⟨rest, hrest, h⟩ := Option.bind_eq_some_iff.mp h
    rw [List.cons_append, insideAll?, hfirst, ih hrest, ← Option.some.inj h]
    simp only [Option.bind_eq_bind, Option.bind_some, Option.pure_def, Inside.append,
      List.append_assoc]

theorem insideAll?_chars {cs : List Char} (h : Blank cs) :
    insideAll? (chars cs) = some .nothing := by
  induction cs with
  | nil => rfl
  | cons c cs ih =>
    obtain ⟨hc, hcs⟩ := List.forall_mem_cons.mp h
    have hfirst : inside? (.char c) = some .nothing := by rw [inside?, if_pos hc]
    have hrest : insideAll? (chars cs) = some .nothing := ih hcs
    show insideAll? (.char c :: chars cs) = some .nothing
    rw [insideAll?, hfirst, hrest]
    rfl

theorem blank_indent (depth : Nat) : Blank (Box.indent depth) := by
  intro c hc
  rw [List.eq_of_mem_replicate hc]
  rfl

/-- An element on a line of its own counts alone. -/
theorem insideAll?_line (depth : Nat) (h : inside? v = some a) :
    insideAll? (chars (Box.indent depth) ++ [v] ++ chars ['\n']) = some a := by
  have hindent : insideAll? (chars (Box.indent depth)) = some .nothing :=
    insideAll?_chars (blank_indent depth)
  have helement : insideAll? [v] = some a := by
    rw [insideAll?, h, insideAll?]
    simp [Inside.append, Inside.nothing]
  have hend : insideAll? (chars ['\n']) = some .nothing := rfl
  rw [insideAll?_append (insideAll?_append hindent helement) hend]
  simp [Inside.append, Inside.nothing]

theorem characters?_chars (cs : List Char) : characters? (chars cs) = some cs := by
  induction cs with
  | nil => rfl
  | cons c cs ih =>
    show characters? (.char c :: chars cs) = some (c :: cs)
    rw [characters?, List.mapM_cons]
    rw [characters?] at ih
    rw [ih]
    rfl

/-- The line of a paragraph holds its characters, neither more nor fewer. -/
theorem insideAll?_paragraph (depth : Nat) (p : Paragraph) :
    insideAll? (p.contents depth) = some ⟨[p.characters], []⟩ := by
  apply insideAll?_line
  rw [inside?, if_pos rfl, characters?_chars, Option.map_some, unescape_escape,
    String.ofList_toList]

/-- The element of a box holds an outline, if its attributes and what lies in it give one. -/
theorem inside?_box {attributes : List (List Char × List Char)} {o : Outline}
    (h : insideAll? vs = some a) (ho : Outline.ofAttributes? attributes a.paragraphs = some o) :
    inside? (.element "div".toList attributes vs) = some ⟨[], [.node o a.boxes]⟩ := by
  rw [inside?, if_neg (by decide), if_pos rfl, h]
  simp only [Option.bind_eq_bind, Option.bind_some, ho, Option.pure_def]

end Markup

namespace Node

variable {registry : StyleRegistry} {n : Node}

/-- The paragraph of a box holds the text of its node. -/
theorem insideAll?_paragraphs {b : Box} (h : n.box registry = .ok b) (depth : Nat) :
    insideAll? ((b.paragraph.map (Paragraph.contents depth)).getD [])
      = some ⟨n.outline.paragraphs, []⟩ := by
  rcases box_cases h with ⟨htext, -, hnone⟩ | ⟨text, p, htext, hp, -, hsome⟩
  · rw [hnone, outline, htext]
    rfl
  · rw [hsome, outline, htext]
    show insideAll? (p.contents depth) = some ⟨[text.characters], []⟩
    rw [insideAll?_paragraph, (paragraph_eq_ok hp).1]

/-- The element of a box holds its paragraph and what the boxes in it hold. -/
theorem exists_contents_eq {b : Box} {below : List (Tree Box)} {outlines : List (Tree Outline)}
    {depth : Nat} (h : n.box registry = .ok b)
    (hbelow : insideAll? (Box.contentsAll (depth + 1) below) = some ⟨[], outlines⟩) :
    ∃ inner, Box.contents depth (.node b below)
        = chars (Box.indent depth) ++ [.element "div".toList b.attributes inner] ++ chars ['\n']
      ∧ insideAll? inner = some ⟨n.outline.paragraphs, outlines⟩ := by
  have hparagraphs := insideAll?_paragraphs h (depth + 1)
  by_cases hempty : b.paragraph = none ∧ below = []
  · obtain ⟨hnone, rfl⟩ := hempty
    refine ⟨[], Box.contents.eq_1 _ _ hnone, ?_⟩
    rw [hnone] at hparagraphs
    have hp : [] = n.outline.paragraphs := (Inside.mk.inj (Option.some.inj hparagraphs)).1
    have ho : [] = outlines := (Inside.mk.inj (Option.some.inj hbelow)).2
    rw [← hp, ← ho]
    rfl
  · refine ⟨_, Box.contents.eq_2 _ _ _ fun hp hbs => hempty ⟨hp, hbs⟩, ?_⟩
    have hstart : insideAll? (chars ['\n']) = some .nothing := rfl
    have hend : insideAll? (chars (Box.indent depth)) = some .nothing :=
      insideAll?_chars (blank_indent depth)
    rw [insideAll?_append (insideAll?_append (insideAll?_append hstart hparagraphs) hbelow) hend]
    simp [Inside.append, Inside.nothing]

mutual

/-- **The boxes of a tree are read back as the outlines of its shown nodes.** -/
theorem insideAll?_contents : ∀ (depth : Nat) {t : Tree Node} {b : Tree Box},
    boxes registry t = .ok b → insideAll? (Box.contents depth b) = some ⟨[], [outlineTree t]⟩
  | depth, .node node children, b, h => by
    rw [boxes] at h
    obtain ⟨own, hown, h⟩ := bind_eq_ok_iff.mp h
    -- below a text there is nothing on either side
    obtain ⟨below, rfl, hbelow⟩ : ∃ below, b = .node own below
        ∧ insideAll? (Box.contentsAll (depth + 1) below)
          = some ⟨[], if node.isText then [] else outlineAll children⟩ := by
      split at h
      · rename_i htext
        refine ⟨[], (Except.ok.inj h).symm, ?_⟩
        rw [if_pos htext]
        rfl
      · rename_i htext
        obtain ⟨below, hbelow, h⟩ := bind_eq_ok_iff.mp h
        refine ⟨below, (Except.ok.inj h).symm, ?_⟩
        rw [if_neg htext]
        exact insideAll?_contentsAll (depth + 1) hbelow
    rw [outlineTree]
    obtain ⟨inner, hcontents, hinner⟩ := exists_contents_eq hown hbelow
    rw [hcontents]
    exact insideAll?_line depth (inside?_box hinner (ofAttributes?_attributes hown _))

theorem insideAll?_contentsAll : ∀ (depth : Nat) {ts : List (Tree Node)} {bs : List (Tree Box)},
    boxesAll registry ts = .ok bs →
      insideAll? (Box.contentsAll depth bs) = some ⟨[], outlineAll ts⟩
  | _, [], bs, h => by
    rw [← Except.ok.inj h]
    rfl
  | depth, t :: ts, bs, h => by
    rw [boxesAll] at h
    obtain ⟨first, hfirst, h⟩ := bind_eq_ok_iff.mp h
    obtain ⟨rest, hrest, h⟩ := bind_eq_ok_iff.mp h
    rw [← Except.ok.inj h]
    exact insideAll?_append (insideAll?_contents depth hfirst) (insideAll?_contentsAll depth hrest)

end

end Node

/-! ### Pages -/

namespace Markup

variable {vs ws : List Content} {ss : List SectionOutline}

theorem sections?_chars {cs : List Char} (h : Blank cs) (vs : List Content) :
    sections? (chars cs ++ vs) = sections? vs := by
  induction cs with
  | nil => rfl
  | cons c cs ih =>
    obtain ⟨hc, hcs⟩ := List.forall_mem_cons.mp h
    show sections? (.char c :: (chars cs ++ vs)) = sections? vs
    rw [sections?, if_pos hc, ih hcs]

/-- The section of a root is read as the outline of the root. -/
theorem sections?_content {registry : StyleRegistry} {root : Tree Node} {s : Section}
    (h : Node.pageSection registry root = .ok s) (hrest : sections? vs = some ss) :
    sections? (s.content :: vs) = some (Node.sectionOutline root :: ss) := by
  obtain ⟨bs, hbs, h⟩ := bind_eq_ok_iff.mp h
  obtain ⟨hid, hboxes⟩ : s.id = root.value.id ∧ s.boxes = bs := by
    rw [← Except.ok.inj h]
    exact ⟨rfl, rfl⟩
  have hlookup : attribute? s.attributes "id" = some ("page-".toList ++ root.value.id.toList) := by
    have hvalue : attribute? s.attributes "id"
        = some (unescape ("page-".toList ++ escapeQuoted s.id)) := rfl
    have hprefix : unescape ("page-".toList ++ escapeQuoted s.id)
        = "page-".toList ++ unescape (escapeQuoted s.id) := rfl
    rw [hvalue, hprefix, unescape_escapeQuoted, hid]
  have hprefix : "page-".toList.isPrefixOf? ("page-".toList ++ root.value.id.toList)
      = some root.value.id.toList := List.isPrefixOf?_eq_some_iff_append_eq.mpr rfl
  have hstart : insideAll? (chars ['\n']) = some .nothing := rfl
  have hinside : insideAll? (chars ['\n'] ++ Box.contentsAll 1 s.boxes)
      = some ⟨[], Node.outlineAll root.children⟩ := by
    rw [hboxes]
    exact insideAll?_append hstart (Node.insideAll?_contentsAll 1 hbs)
  rw [Section.content, sections?, if_pos rfl, hlookup, hinside, hrest]
  simp only [Option.bind_eq_bind, Option.bind_some, hprefix, String.ofList_toList]
  rfl

/-- The sections of roots are read one by one, whatever blanks stand between them. -/
theorem sections?_intercalate {registry : StyleRegistry} {roots : List (Tree Node)}
    {sections : List Section} {blanks : List Char} (hblanks : Blank blanks)
    (h : List.Forall₂ (fun root s => Node.pageSection registry root = .ok s) roots sections)
    (hrest : sections? vs = some []) :
    sections? ((chars blanks).intercalate (sections.map fun s => [s.content]) ++ vs)
      = some (roots.map Node.sectionOutline) := by
  induction h with
  | nil => exact hrest
  | @cons root s roots sections hfirst hmore ih =>
    cases hmore with
    | nil =>
      rw [List.map_singleton, List.intercalate_singleton]
      exact sections?_content hfirst hrest
    | @cons next t _ _ hsecond hmore =>
      rw [List.map_cons, List.map_cons, List.intercalate_cons_cons, List.append_assoc,
        List.append_assoc, List.singleton_append]
      apply sections?_content hfirst
      rw [sections?_chars hblanks]
      exact ih

end Markup

namespace PageOutline

variable {title : String} {forest : List (Tree Node)} {ops : List StyleRegistry.Operation}

/-- A text that is read as the contents of a page is read as its title and its sections. -/
theorem read_eq {page : Page} {ss : List SectionOutline}
    (h : ∀ s ∈ page.sections, s.QuoteFree)
    (hsections : sections? (chars ['\n']
      ++ (chars ['\n', '\n']).intercalate (page.sections.map fun s => [s.content])
      ++ chars ['\n']) = some ss) :
    read page.text = some ⟨page.title, ss⟩ := by
  -- the elements of the frame stand in fixed places, so they are found by evaluation
  obtain ⟨html, hhtml, ⟨head, hhead, htitle⟩, hbody⟩ : ∃ html,
      held? "html" page.contents = some html
        ∧ (∃ head, held? "head" html = some head
          ∧ held? "title" head = some (chars (escape page.title)))
        ∧ held? "body" html = some (chars ['\n']
          ++ (chars ['\n', '\n']).intercalate (page.sections.map fun s => [s.content])
          ++ chars ['\n']) := ⟨_, rfl, ⟨_, rfl, rfl⟩, rfl⟩
  rw [read, Page.text, String.toList_ofList, contents?_eq (page.denotes_write h)]
  simp only [Option.bind_eq_bind, Option.bind_some, hhtml, hhead, htitle, hbody, characters?_chars,
    hsections, unescape_escape, String.ofList_toList]
  rfl

/-- **The text of a page is read back as the forest that it was made from**, whatever happened to
the registry before.  A page can be made exactly if the colour of every shown text can be used. -/
theorem read_text (title : String) (ops : List StyleRegistry.Operation) (forest : List (Tree Node))
    (hplain : ∀ n ∈ Tree.preorderAll forest, ∀ text, n.textContent? = some text →
      Typography.PlainMetrics text.style) :
    ((∃ page, Page.ofForest title (.after ops) forest = .ok page)
        ↔ ∀ root ∈ forest, ∀ n ∈ Node.shownAll root.children, n.isText = true →
          ∀ paint, Paint.firstVisible n.fills = some paint → Paint.isSolid paint = true →
            Paint.SolidUsable paint)
      ∧ ∀ page, Page.ofForest title (.after ops) forest = .ok page →
        read page.text = some ⟨title, forest.map Node.sectionOutline⟩ := by
  have hmade : (∃ page, Page.ofForest title (.after ops) forest = .ok page)
      ↔ ∀ root ∈ forest, ∀ n ∈ Node.shownAll root.children,
        Returns (n.box (StyleRegistry.after ops)) := by
    have hsection : ∀ root, Returns (Node.pageSection (.after ops) root)
        ↔ ∀ n ∈ Node.shownAll root.children, Returns (n.box (StyleRegistry.after ops)) := by
      intro root
      rw [Node.pageSection, returns_bind_of_returns fun _ => returns_pure _]
      exact Node.returns_boxesAll_iff
    show Returns (Page.ofForest title (.after ops) forest) ↔ _
    rw [Page.ofForest, returns_bind_of_returns fun _ => returns_pure _, returns_mapM_iff]
    exact forall₂_congr fun root _ => hsection root
  simp only [Node.returns_box_iff, Node.returns_textColor_iff] at hmade
  refine ⟨hmade, fun page hpage => ?_⟩
  have hquote : ∀ root ∈ forest, ∀ n ∈ Node.shownAll root.children, n.MetricsQuoteFree := by
    intro root hroot n hn text htext
    have hmem : n ∈ root.preorder := by
      obtain ⟨node, children⟩ := root
      exact List.mem_cons_of_mem _ (Node.mem_preorderAll_of_mem_shownAll hn)
    exact Declaration.quote_notMem_writeAll
      (hplain n (Tree.mem_preorderAll_of_mem hroot hmem) text htext).plain
  have hfree := Page.quoteFree_ofForest hpage hquote
  obtain ⟨sections, hsections, hpage⟩ := bind_eq_ok_iff.mp hpage
  obtain ⟨htitle, hall⟩ : page.title = title ∧ page.sections = sections := by
    rw [← Except.ok.inj hpage]
    exact ⟨rfl, rfl⟩
  rw [← htitle]
  apply read_eq hfree
  rw [hall, List.append_assoc, sections?_chars (by decide)]
  exact sections?_intercalate (by decide) (mapM_eq_ok_iff.mp hsections) rfl

/-- A frame around a text whose identifier and characters look like markup. -/
def markedForest : List (Tree Node) :=
  let blank : Node := .ofSource .zero .zero .blank
  [.node { blank with id := "1:1", type := frameKind, width := .ofNat 320, height := .ofNat 200 }
    [.leaf { blank with
      id := "1:2\"><p>"
      type := textKind
      text := some ⟨"  a < b &amp; </p>\n", [("fontSize", .int 12), ("fontWeight", .null)]⟩ }]]

theorem read_text_markedForest :
    ∃ page, Page.ofForest "<b>" (.after []) markedForest = .ok page
      ∧ read page.text = some ⟨"<b>", markedForest.map Node.sectionOutline⟩ := by
  have hplain : ∀ n ∈ Tree.preorderAll markedForest, ∀ text, n.textContent? = some text →
      Typography.PlainMetrics text.style := by
    have hall : ∀ n ∈ Tree.preorderAll markedForest, ∀ text ∈ n.textContent?.toList,
        Typography.PlainMetrics text.style := by decide +kernel
    exact fun n hn text htext => hall n hn text (Option.mem_toList.mpr htext)
  have hfills : ∀ root ∈ markedForest, ∀ n ∈ Node.shownAll root.children,
      Paint.firstVisible n.fills = none := by
    have hall : ∀ root ∈ markedForest, ∀ n ∈ Node.shownAll root.children,
        (Paint.firstVisible n.fills).isNone := by decide +kernel
    exact fun root hroot n hn => Option.isNone_iff_eq_none.mp (hall root hroot n hn)
  obtain ⟨hmade, hread⟩ := read_text "<b>" [] markedForest hplain
  obtain ⟨page, hpage⟩ := hmade.mpr fun root hroot n hn _ paint hpaint => by
    rw [hfills root hroot n hn] at hpaint
    cases hpaint
  exact ⟨page, hpage, hread page hpage⟩

end PageOutline

end FrameExport
