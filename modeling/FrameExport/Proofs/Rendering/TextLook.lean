import FrameExport.Proofs.Page.Declarations
import FrameExport.Proofs.Rendering.Appearance

/-!
# The look of a text is stated twice, and in the same way

The look of a text stands in the rule of the class of its typography and, once more, on its paragraph.
The class is shared with every text that has the same typography, so the rule may have been made from
another one; the colour of the paragraph comes from the fill of the text, which as a style of its own
has a class that no element of the text wears.

`Declaration.about` picks the declarations of some properties.  `Node.Agrees` says what the two places
have in common, and `Page.agrees_of_texts` is the headline: they agree for every text on a page.
-/

namespace FrameExport

open Paint (firstVisible isSolid)

/-! ### Declarations of some properties -/

namespace Declaration

variable {properties : List String} {ds : List Declaration}

/-- The declarations of some properties, in order. -/
def about (properties : List String) (ds : List Declaration) : List Declaration :=
  ds.filter fun d => d.property ∈ properties

theorem about_append (properties : List String) (ds es : List Declaration) :
    about properties (ds ++ es) = about properties ds ++ about properties es :=
  List.filter_append ..

theorem about_eq_self (h : ∀ d ∈ ds, d.property ∈ properties) : about properties ds = ds := by
  rw [about, List.filter_eq_self]
  simpa using h

theorem about_eq_nil (h : ∀ d ∈ ds, d.property ∉ properties) : about properties ds = [] := by
  rw [about, List.filter_eq_nil_iff]
  simpa using h

end Declaration

namespace Typography

open Declaration (about about_append about_eq_self about_eq_nil)

variable {properties : List String}

theorem about_declare_of_mem {property : String} (h : property ∈ properties)
    (value : Json → String) (v : Json) :
    about properties (declare property value v) = declare property value v :=
  about_eq_self fun d hd => by rwa [eq_of_mem_declare hd]

theorem about_declare_of_notMem {property : String} (h : property ∉ properties)
    (value : Json → String) (v : Json) : about properties (declare property value v) = [] :=
  about_eq_nil fun d hd => by rwa [eq_of_mem_declare hd]

theorem about_capitals (h : "text-transform" ∉ properties) (v : Json) :
    about properties (capitals v) = [] := by
  unfold capitals
  split
  · exact about_eq_nil fun d hd => by rwa [List.mem_singleton.mp hd]
  · rfl

theorem about_metricProperties_metrics (style : Fields) :
    about metricProperties (metrics style) = metrics style :=
  about_eq_self fun _ hd => (exists_key_of_mem_metrics hd).1

/-- The metrics declare nothing but their properties. -/
theorem about_metrics_of_disjoint (h : ∀ property ∈ metricProperties, property ∉ properties)
    (style : Fields) : about properties (metrics style) = [] :=
  about_eq_nil fun d hd => h d.property (exists_key_of_mem_metrics hd).1

/-- Of what the class of a text says, the metrics are what is about their properties. -/
theorem about_metricProperties_declarations (style : Fields) :
    about metricProperties (declarations style) = metrics style := by
  rw [declarations_eq_metrics, about_append, about_append, about_append, about_metricProperties_metrics,
    about_declare_of_notMem (by decide), about_declare_of_notMem (by decide),
    about_capitals (by decide), List.nil_append, List.append_nil, List.append_nil]

/-- The class of a text says how it is aligned if its typography does. -/
theorem about_alignment_declarations (style : Fields) :
    about ["text-align"] (declarations style)
      = declare "text-align" alignment (style.get "textAlignHorizontal") := by
  rw [declarations_eq_metrics, about_append, about_append, about_append,
    about_metrics_of_disjoint (by decide), about_declare_of_notMem (by decide),
    about_declare_of_mem (by decide), about_capitals (by decide), List.nil_append,
    List.nil_append, List.append_nil]

end Typography

/-! ### Rules -/

namespace Stylesheet

/-- The rules that select a class. -/
def rulesFor (sheet : Stylesheet) (token : String) : List Rule :=
  (globalRules ++ sheet.rules).filter fun rule => rule.selector = "." ++ token

/-- The rule of a solid fill says the colour of the fill. -/
theorem fillDeclaration_of_isSolid {paint : Fields} {declaration : Declaration}
    (hsolid : isSolid paint = true) (h : fillDeclaration (.obj paint) = .ok declaration) :
    ∃ color, Paint.color (.obj paint) = .ok color
      ∧ declaration = ⟨"background-color", color.text⟩ := by
  obtain ⟨gradient?, hgradient, h⟩ := bind_eq_ok_iff.mp h
  obtain rfl := Paint.gradient_of_isSolid hsolid hgradient
  obtain ⟨color, hcolor, h⟩ := bind_eq_ok_iff.mp h
  exact ⟨color, hcolor, (Except.ok.inj h).symm⟩

end Stylesheet

namespace Node

open Declaration (about about_append)
open Typography (metricProperties)

variable {n : Node} {text : TextContent} {p : Paragraph}

/-- A text takes the colour of its fill if that is a solid one. -/
theorem textColor_of_isSolid {paint : Fields} (hpaint : firstVisible n.fills = some paint)
    (hsolid : isSolid paint = true) :
    n.textColor = (Paint.color (.obj paint)).map Color.text := by
  rw [textColor, hpaint]
  exact if_pos hsolid

/-! ### Paragraphs -/

/-- What stands on a paragraph besides the metrics. -/
def paragraphFrame (text : TextContent) (color : String) : List Declaration :=
  [⟨"margin", "0"⟩, ⟨"width", "100%"⟩, ⟨"white-space", "pre-wrap"⟩,
    ⟨"text-align", Typography.alignment (text.style.get "textAlignHorizontal")⟩, ⟨"color", color⟩]

theorem exists_style_eq (h : n.paragraph text = .ok p) :
    ∃ color, n.textColor = .ok color
      ∧ p.style = paragraphFrame text color ++ Typography.metrics text.style := by
  obtain ⟨color, hcolor, h⟩ := bind_eq_ok_iff.mp h
  obtain rfl := Except.ok.inj h
  exact ⟨color, hcolor, rfl⟩

/-- Of what stands on a paragraph, the metrics are what is about their properties. -/
theorem about_metricProperties_style (text : TextContent) (color : String) :
    about metricProperties (paragraphFrame text color ++ Typography.metrics text.style)
      = Typography.metrics text.style := by
  rw [about_append, Typography.about_metricProperties_metrics]
  rfl

/-- What a paragraph says of anything else than the metrics stands before them. -/
theorem about_style_of_disjoint {properties : List String}
    (h : ∀ property ∈ metricProperties, property ∉ properties) (text : TextContent)
    (color : String) :
    about properties (paragraphFrame text color ++ Typography.metrics text.style)
      = about properties (paragraphFrame text color) := by
  rw [about_append, Typography.about_metrics_of_disjoint h, List.append_nil]

/-! ### The two places -/

/-- The class `token` of the typography of a text, whose rule has the given declarations, and the
paragraph of the text agree on its look. -/
structure Agrees (registry : StyleRegistry) (sheet : Stylesheet) (n : Node) (b : Box) (p : Paragraph)
    (token : String) (declarations : List Declaration) : Prop where
  /-- The text has the paragraph on the page. -/
  paragraph : b.paragraph = some p
  /-- The text wears the class. -/
  worn : n.textClass? registry = some token ∧ token ∈ tokens b.classes
  /-- One rule selects the class. -/
  rule : sheet.rulesFor token = [⟨"." ++ token, declarations⟩]
  /-- Size, weight, line height and spacing are the same. -/
  metrics : about metricProperties declarations = about metricProperties p.style
  /-- If the class says how the text is aligned, the paragraph says the same and nothing else. -/
  alignment : ∀ d ∈ about ["text-align"] declarations, about ["text-align"] p.style = [d]
  /-- The characters have the colour that the class of the fill gives, if the fill is a solid one. -/
  color : ∀ paint, firstVisible n.fills = some paint → isSolid paint = true →
    ∃ fillToken color, registry.classOf? (.fill paint) = some fillToken
      ∧ sheet.rulesFor fillToken = [⟨"." ++ fillToken, [⟨"background-color", color⟩]⟩]
      ∧ about ["color"] p.style = [⟨"color", color⟩]

variable {forest : List (Tree Node)} {sheet : Stylesheet} {b : Box}

/-- The rule of the class of a solid fill gives the colour that a text with this fill has. -/
theorem exists_fill_rule (hsheet : Stylesheet.ofRegistry (.ofForest forest) = .ok sheet)
    (hn : n ∈ Tree.preorderAll forest) {paint : Fields} (hpaint : firstVisible n.fills = some paint)
    (hsolid : isSolid paint = true) {color : String} (hcolor : n.textColor = .ok color) :
    ∃ token, (StyleRegistry.ofForest forest).classOf? (.fill paint) = some token
      ∧ sheet.rulesFor token = [⟨"." ++ token, [⟨"background-color", color⟩]⟩] := by
  have hd : n.descriptor? .fill = some (.fill paint) :=
    Option.map_eq_some_iff.mpr ⟨paint, hpaint, rfl⟩
  obtain ⟨i, htoken⟩ := exists_classOf? hn hd
  obtain ⟨-, -, declarations, hrule, hown⟩ := wears_of_classOf? hsheet hn hd htoken
  obtain ⟨paint', declaration, hpaint', hdeclaration, rfl⟩ := hown
  obtain rfl := Option.some.inj (hpaint.symm.trans hpaint')
  -- the colour of the rule and that of the characters are read from one paint
  obtain ⟨c, hc, rfl⟩ := Stylesheet.fillDeclaration_of_isSolid hsolid hdeclaration
  rw [textColor_of_isSolid hpaint hsolid, hc] at hcolor
  obtain rfl := Except.ok.inj hcolor
  exact ⟨_, htoken, hrule⟩

/-- The class and the paragraph of a text agree if there is no object in its typography. -/
theorem exists_agrees (hsheet : Stylesheet.ofRegistry (.ofForest forest) = .ok sheet)
    (hn : n ∈ Tree.preorderAll forest) (hb : n.box (.ofForest forest) = .ok b)
    (htext : n.textContent? = some text) (hfree : ∀ f ∈ text.style, f.2.objectFree = true) :
    ∃ p token declarations, n.Agrees (.ofForest forest) sheet b p token declarations := by
  obtain ⟨hnone, -⟩ | ⟨text', p, htext', hp, -, hparagraph⟩ := box_cases hb
  · rw [htext] at hnone
    cases hnone
  obtain rfl := Option.some.inj (htext.symm.trans htext')
  obtain ⟨color, hcolor, hstyle⟩ := exists_style_eq hp
  have hd : n.descriptor? .text = some (.text (.obj text.style)) :=
    Option.map_eq_some_iff.mpr ⟨text, htext, rfl⟩
  obtain ⟨i, htoken⟩ := exists_classOf? hn hd
  obtain ⟨-, -, declarations, hrule, text', htext', hown⟩ := wears_of_classOf? hsheet hn hd htoken
  obtain rfl := Option.some.inj (htext.symm.trans htext')
  obtain rfl := hown hfree
  have hclass := textClass?_eq_some_iff.mpr ⟨_, hd, htoken⟩
  refine ⟨p, _, _, hparagraph, ⟨hclass, ?_⟩, hrule, ?_, ?_, ?_⟩
  · rw [(box_eq_ok hb).2, IsStyleClasses.text.tokens_eq hn (by decide)]
    exact List.mem_cons_of_mem _ (List.mem_append_right _ (Option.mem_toList.mpr hclass))
  · rw [hstyle, about_metricProperties_style, Typography.about_metricProperties_declarations]
  · intro d hdeclared
    rw [Typography.about_alignment_declarations] at hdeclared
    rw [hstyle, about_style_of_disjoint (by decide), Typography.eq_of_mem_declare hdeclared]
    rfl
  · intro paint hpaint hsolid
    obtain ⟨fillToken, hfill, hfillRule⟩ := exists_fill_rule hsheet hn hpaint hsolid hcolor
    refine ⟨fillToken, color, hfill, hfillRule, ?_⟩
    rw [hstyle, about_style_of_disjoint (by decide)]
    rfl

end Node

/-- **The look of a text is stated twice, and in the same way.**  If a forest has a style sheet and a
page, then there is one section for each root, with one box for each shown node below it in order; and
for each text among them, unless there is an object in its typography, the rule of the class of its
typography and its paragraph agree. -/
theorem Page.agrees_of_texts {forest : List (Tree Node)} {sheet : Stylesheet} {title : String}
    {page : Page} (hsheet : Stylesheet.ofRegistry (.ofForest forest) = .ok sheet)
    (hpage : ofForest title (.ofForest forest) forest = .ok page) :
    List.Forall₂ (fun root s => List.Forall₂ (fun n b =>
        ∀ text, n.textContent? = some text → (∀ f ∈ text.style, f.2.objectFree = true) →
          ∃ p token declarations, n.Agrees (.ofForest forest) sheet b p token declarations)
      (Node.shownAll root.children) (Tree.preorderAll s.boxes)) forest page.sections := by
  obtain ⟨sections, hsections, hmake⟩ := bind_eq_ok_iff.mp hpage
  obtain rfl := Except.ok.inj hmake
  have hroots := (List.forall₂_and_left _ _).mpr
    ⟨fun root (hroot : root ∈ forest) => hroot, mapM_eq_ok_iff.mp hsections⟩
  refine hroots.imp fun root s ⟨hroot, hs⟩ => ?_
  obtain ⟨boxes, hboxes, hmake⟩ := bind_eq_ok_iff.mp hs
  obtain rfl := Except.ok.inj hmake
  have hshown := (List.forall₂_and_left _ _).mpr
    ⟨fun n hn => Node.mem_preorderAll_of_mem_shownAll hn, Node.boxesAll_forall₂ hboxes⟩
  refine hshown.imp fun n b ⟨hn, hb⟩ text htext hfree => ?_
  have hmem : n ∈ Tree.preorderAll forest := by
    obtain ⟨node, children⟩ := root
    exact Tree.mem_preorderAll_of_mem hroot (List.mem_cons_of_mem _ hn)
  exact Node.exists_agrees hsheet hmem hb htext hfree

/-- A centred text in a colour. -/
def Node.centredText : Node :=
  .ofSource .zero .zero { SourceNode.blank with
    type := textKind
    fills := [[("type", .str "SOLID")]]
    style := some [("fontSize", .int 16), ("textAlignHorizontal", .str "CENTER")] }

/-- A frame with the centred text. -/
def Node.centredFrame : List (Tree Node) :=
  [.node (.ofSource .zero .zero { SourceNode.blank with type := frameKind }) [.leaf centredText]]

theorem Page.agrees_of_texts_centredFrame :
    ∃ sheet page, Stylesheet.ofRegistry (.ofForest Node.centredFrame) = .ok sheet
      ∧ ofForest defaultTitle (.ofForest Node.centredFrame) Node.centredFrame = .ok page
      ∧ ∃ s b p token declarations, s ∈ page.sections ∧ b ∈ Tree.preorderAll s.boxes
        ∧ Node.centredText.Agrees (.ofForest Node.centredFrame) sheet b p token declarations := by
  obtain ⟨sheet, hsheet⟩ : Returns (Stylesheet.ofRegistry (.ofForest Node.centredFrame)) :=
    returns_of_isOk (by decide +kernel)
  obtain ⟨page, hpage⟩ :
      Returns (ofForest defaultTitle (.ofForest Node.centredFrame) Node.centredFrame) :=
    returns_of_isOk (by decide +kernel)
  have hroots := agrees_of_texts hsheet hpage
  obtain ⟨s, rest, hboxes, -, hsections⟩ := List.forall₂_cons_left_iff.mp hroots
  obtain ⟨b, others, hagrees, -, hpreorder⟩ := List.forall₂_cons_left_iff.mp hboxes
  obtain ⟨p, token, declarations, h⟩ := hagrees _ rfl (by decide)
  refine ⟨sheet, page, hsheet, hpage, s, b, p, token, declarations, ?_, ?_, h⟩
  · rw [hsections]
    exact List.mem_cons_self
  · rw [hpreorder]
    exact List.mem_cons_self

end FrameExport
