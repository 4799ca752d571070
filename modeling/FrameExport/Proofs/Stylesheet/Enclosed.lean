import FrameExport.Proofs.Stylesheet.ReadBack
import FrameExport.Proofs.Stylesheet.Rules

/-!
# Values stay in their declarations

Nobody has checked what a style says, so a value of it might end the declaration in which it is
written, or the whole rule.  Colours, gradients and widths never do: they are made of words, numbers
and brackets.  Of a typography two things can: the metrics, which are written as they are, with a
mark of style sheets, and the family, which is a quoted string, with a line break.
`Typography.Enclosed` excludes both.

The headline is `Stylesheet.read_text_ofForest`: the rules read in the style sheet of a forest are
the global ones and then one for each style, with the properties of its kind, if every typography is
enclosed.
-/

namespace FrameExport

open Text (Word isWordChar word_append)

open SheetReader (Passes Label Legible LegibleDeclaration passes_word)

/-! ### Colours and gradients -/

namespace SheetReader

variable {cs args name name' : List Char}

/-- Behind a blank or another character that is in no name, no name ends. -/
theorem passes_ended {c : Char} (h : Word cs) (hc : isWordChar c = true)
    (hname : isNameChar c = false) (name : List Char) : Passes name (cs ++ [c]) [] := by
  have hword : Word (cs ++ [c]) :=
    word_append.mpr ⟨h, List.forall_mem_singleton.mpr hc⟩
  have hlast : (cs ++ [c]).foldl nextName name = [] := by
    rw [List.foldl_append, List.foldl_cons, List.foldl_nil, nextName, hname]
    rfl
  have hpasses := passes_word hword name
  rwa [hlast] at hpasses

/-- A function with arguments that pass is no address. -/
theorem passes_function (h : Word cs)
    (hurl : (cs.foldl nextName []).map Char.toLower ≠ "url".toList)
    (hargs : Passes [] args name') : Passes [] (cs ++ '(' :: (args ++ [')'])) [] :=
  (passes_word h []).append (passes_brackets hurl hargs)

end SheetReader

open SheetReader (passes_ended passes_function passes_quoted)

theorem Color.exists_passes_text (color : Color) : ∃ name, Passes [] color.text.toList name := by
  cases color with
  | transparent => exact ⟨_, passes_word (by decide) []⟩
  | rgba r g b a =>
    have hcomma : Word ",".toList := by decide
    have hargs : Word (intDigits r ++ ",".toList ++ intDigits g ++ ",".toList ++ intDigits b
        ++ ",".toList ++ a.writeFixed 3) := by
      simp only [word_append]
      exact ⟨⟨⟨⟨⟨⟨word_intDigits r, hcomma⟩, word_intDigits g⟩, hcomma⟩, word_intDigits b⟩, hcomma⟩,
        a.word_writeFixed 3⟩
    have hname : Word "rgba".toList := by decide
    have hall := passes_function hname (by decide) (passes_word hargs [])
    refine ⟨[], ?_⟩
    have htext : (Color.rgba r g b a).text.toList = "rgba".toList ++ '(' :: (intDigits r
        ++ ",".toList ++ intDigits g ++ ",".toList ++ intDigits b ++ ",".toList ++ a.writeFixed 3
        ++ [')']) := by
      simp [Color.text]
    rw [htext]
    exact hall

theorem GradientStop.passes_text (stop : GradientStop) : Passes [] stop.text.toList [] := by
  obtain ⟨name, hcolor⟩ := stop.color.exists_passes_text
  have hword : Word (" ".toList ++ intDigits stop.percent) :=
    word_append.mpr ⟨by decide, word_intDigits _⟩
  have hpercent := passes_ended (c := '%') hword (by decide) (by decide) name
  have htext : stop.text.toList
      = stop.color.text.toList ++ (" ".toList ++ intDigits stop.percent ++ ['%']) := by
    simp [GradientStop.text]
  rw [htext]
  exact hcolor.append hpercent

theorem Gradient.passes_text (g : Gradient) : Passes [] g.text.toList [] := by
  have hstops : Passes []
      (", ".toList.intercalate (g.stops.map fun stop => stop.text.toList)) [] := by
    have hcomma : Word [','] := by decide
    refine Text.intercalate_induction (P := fun cs => Passes [] cs []) (.nil []) Passes.append
      (passes_ended (c := ' ') hcomma (by decide) (by decide) []) ?_
    intro cs hcs
    obtain ⟨stop, -, rfl⟩ := List.mem_map.mp hcs
    exact stop.passes_text
  have hlead : ∀ direction, Word direction → Passes [] (direction ++ ", ".toList
      ++ ", ".toList.intercalate (g.stops.map fun stop => stop.text.toList)) [] := by
    intro direction hdirection
    have hword : Word (direction ++ [',']) := word_append.mpr ⟨hdirection, by decide⟩
    have hended := passes_ended (c := ' ') hword (by decide) (by decide) []
    rw [List.append_assoc] at hended
    exact hended.append hstops
  cases hshape : g.shape with
  | linear =>
    have hname : Word "linear-gradient".toList := by decide
    have hall := passes_function hname (by decide) (hlead "90deg".toList (by decide))
    simpa [Gradient.text, hshape, String.toList_intercalate, Function.comp_def] using hall
  | radial =>
    have hname : Word "radial-gradient".toList := by decide
    have hall := passes_function hname (by decide) (hlead "circle".toList (by decide))
    simpa [Gradient.text, hshape, String.toList_intercalate, Function.comp_def] using hall

/-! ### Typographies -/

namespace Typography

variable {style : Fields}

/-- No value of the typography ends its declaration: the metrics have no mark of style sheets, and
the family has no line break. -/
structure Enclosed (style : Fields) : Prop where
  metrics : ∀ d ∈ metrics style, SheetReader.Unmarked d.value.toList
  family : SheetReader.Unbroken (style.get "fontFamily").shown

/-- Metrics that are null, truth values or numbers have no marks. -/
theorem PlainMetrics.unmarked (h : PlainMetrics style) :
    ∀ d ∈ metrics style, SheetReader.Unmarked d.value.toList := by
  intro d hd
  obtain ⟨-, key, hkey, unit, hunit, hvalue⟩ := exists_key_of_mem_metrics hd
  have hunits : ∀ unit ∈ ["px", ""], Word unit.toList := by decide
  apply SheetReader.unmarked_of_word
  rw [hvalue, word_append]
  exact ⟨Json.word_styled (h key hkey), hunits unit hunit⟩

end Typography

/-! ### Rules of styles -/

/-- The properties that the rules of a kind may have, in order. -/
def StyleKind.properties : StyleKind → List String
  | .text => ["font-family", "font-size", "font-weight", "line-height", "letter-spacing",
      "text-align", "text-transform"]
  | .fill => ["background", "background-color"]
  | .stroke => ["border"]

theorem StyleKind.label_of_mem_properties (kind : StyleKind) :
    ∀ property ∈ kind.properties, Label property.toList := by
  cases kind <;> decide

namespace Typography

theorem sublist_properties (style : Fields) :
    ((declarations style).map Declaration.property).Sublist StyleKind.text.properties := by
  have hdeclare : ∀ (property : String) (value : Json → String) v,
      ((declare property value v).map Declaration.property).Sublist [property] := by
    intro property value v
    unfold declare
    split
    · exact List.Sublist.refl _
    · exact List.nil_sublist _
  have hcapitals : ∀ v, ((capitals v).map Declaration.property).Sublist ["text-transform"] := by
    intro v
    unfold capitals
    split
    · exact List.Sublist.refl _
    · exact List.nil_sublist _
  simp only [declarations_eq_metrics, metrics, List.map_append]
  exact (((hdeclare "font-family" _ _).append ((((hdeclare "font-size" _ _).append
    (hdeclare "font-weight" _ _)).append (hdeclare "line-height" _ _)).append
    (hdeclare "letter-spacing" _ _))).append (hdeclare "text-align" _ _)).append (hcapitals _)

/-- The values of an enclosed typography pass. -/
theorem Enclosed.passes {style : Fields} (h : Enclosed style) :
    ∀ d ∈ declarations style, ∃ name, Passes [] d.value.toList name := by
  have hfamily : ∃ name, Passes [] (Typography.family (style.get "fontFamily")).toList name := by
    rw [Typography.family, String.toList_ofList]
    exact ⟨_, (passes_quoted h.family []).append (passes_word (by decide) [])⟩
  have hcapitals : ∀ v, ∀ d ∈ capitals v, Word d.value.toList := by
    intro v
    unfold capitals
    split <;> decide
  intro d hd
  rw [declarations_eq_metrics, List.mem_append, List.mem_append, List.mem_append] at hd
  rcases hd with ((hd | hd) | hd) | hd
  · obtain rfl := eq_of_mem_declare hd
    exact hfamily
  · exact ⟨_, (h.metrics d hd).passes []⟩
  · obtain rfl := eq_of_mem_declare hd
    exact ⟨_, passes_word (word_alignment _) []⟩
  · exact ⟨_, passes_word (hcapitals _ d hd) []⟩

end Typography

namespace Stylesheet

variable {kind : StyleKind} {entry : StyleEntry} {rule : Rule} {sheet : Stylesheet}
  {forest : List (Tree Node)}

/-- What the rule of a style says: the whole typography, one area that is filled by a gradient or by
a colour, or one line in a colour. -/
theorem declarations_cases (h : entryRule kind entry = .ok rule) :
    (kind = .text ∧ ∃ style, entry.payload = .obj style
        ∧ rule.declarations = Typography.declarations style)
      ∨ (kind = .fill ∧ ∃ gradient : Gradient, rule.declarations = [⟨"background", gradient.text⟩])
      ∨ (kind = .fill ∧ ∃ color : Color, rule.declarations = [⟨"background-color", color.text⟩])
      ∨ (kind = .stroke ∧ ∃ color : Color, rule.declarations
        = [⟨"border", Typography.pixels entry.weight ++ " solid " ++ color.text⟩]) := by
  cases kind with
  | text =>
    simp only [entryRule, textRule] at h
    split at h
    · rename_i style hstyle
      rw [← Except.ok.inj h]
      exact .inl ⟨rfl, style, hstyle, rfl⟩
    · cases h
  | fill =>
    obtain ⟨d, hd, h⟩ := bind_eq_ok_iff.mp h
    obtain ⟨gradient?, -, hd⟩ := bind_eq_ok_iff.mp hd
    rw [← Except.ok.inj h]
    cases gradient? with
    | some gradient =>
      rw [← Except.ok.inj hd]
      exact .inr (.inl ⟨rfl, gradient, rfl⟩)
    | none =>
      obtain ⟨color, -, hd⟩ := bind_eq_ok_iff.mp hd
      rw [← Except.ok.inj hd]
      exact .inr (.inr (.inl ⟨rfl, color, rfl⟩))
  | stroke =>
    obtain ⟨d, hd, h⟩ := bind_eq_ok_iff.mp h
    obtain ⟨color, -, hd⟩ := bind_eq_ok_iff.mp hd
    rw [← Except.ok.inj h, ← Except.ok.inj hd]
    exact .inr (.inr (.inr ⟨rfl, color, rfl⟩))

/-- The properties in the rule of a style are some of those of its kind, in their order. -/
theorem sublist_properties (h : entryRule kind entry = .ok rule) :
    (rule.declarations.map Declaration.property).Sublist kind.properties := by
  rcases declarations_cases h with
    ⟨rfl, style, -, hds⟩ | ⟨rfl, gradient, hds⟩ | ⟨rfl, color, hds⟩ | ⟨rfl, color, hds⟩
  · rw [hds]
    exact Typography.sublist_properties style
  · rw [hds]
    exact (by decide : ["background"].Sublist StyleKind.fill.properties)
  · rw [hds]
    exact (by decide : ["background-color"].Sublist StyleKind.fill.properties)
  · rw [hds]
    exact List.Sublist.refl _

/-- The values in the rule of a style pass. -/
theorem passes_of_entryRule (h : entryRule kind entry = .ok rule)
    (htypography : kind = .text → ∀ style, entry.payload = .obj style → Typography.Enclosed style)
    (hweight : entry.weight.isPlain = true) :
    ∀ d ∈ rule.declarations, ∃ name, Passes [] d.value.toList name := by
  rcases declarations_cases h with
    ⟨hkind, style, hstyle, hds⟩ | ⟨-, gradient, hds⟩ | ⟨-, color, hds⟩ | ⟨-, color, hds⟩
  · rw [hds]
    exact (htypography hkind style hstyle).passes
  · rw [hds, List.forall_mem_singleton]
    exact ⟨[], gradient.passes_text⟩
  · rw [hds, List.forall_mem_singleton]
    exact color.exists_passes_text
  · rw [hds, List.forall_mem_singleton]
    have hwidth : Word ((Typography.pixels entry.weight).toList ++ " solid".toList) :=
      word_append.mpr ⟨Typography.word_pixels hweight, by decide⟩
    have hended := passes_ended (c := ' ') hwidth (by decide) (by decide) []
    obtain ⟨name, hcolor⟩ := color.exists_passes_text
    refine ⟨name, ?_⟩
    have hall := hended.append hcolor
    simpa [List.append_assoc] using hall

theorem label_selector (kind : StyleKind) (i : Nat) : Label ("." ++ kind.className i).toList := by
  rw [String.toList_append]
  have hpoint : Word ".".toList := by decide
  refine ⟨List.cons_ne_nil _ _, word_append.mpr ⟨hpoint, kind.word_className i⟩, ?_⟩
  rw [List.mem_append, not_or]
  exact ⟨by decide, kind.blank_notMem_className i⟩

theorem isPlain_weight {n : Node} {d : Descriptor} (h : n.descriptor? kind = some d) :
    d.weight.isPlain = true := by
  cases kind with
  | text =>
    obtain ⟨text, -, rfl⟩ := Option.map_eq_some_iff.mp h
    rfl
  | fill =>
    obtain ⟨paint, -, rfl⟩ := Option.map_eq_some_iff.mp h
    rfl
  | stroke =>
    obtain ⟨paint, weight, -, -, rfl⟩ := Node.mem_strokeDescriptor?.mp h
    rfl

/-- The rule of a style in the registry of a forest is read back. -/
theorem legible_of_entryRule (h : entryRule kind entry = .ok rule)
    (hentry : entry ∈ ((StyleRegistry.ofForest forest).table kind).entries)
    (htypography : ∀ n ∈ Tree.preorderAll forest, ∀ text, n.textContent? = some text →
      Typography.Enclosed text.style) : Legible rule := by
  obtain ⟨i, d, hd, rfl⟩ := StyleRegistry.mem_entries_ofForest.mp hentry
  obtain ⟨n, hn, hdescriptor⟩ := StyleRegistry.exists_node_of_mem (List.mem_of_getElem? hd)
  constructor
  · rw [selector_eq h]
    exact label_selector kind i
  · have hvalues : ∀ d ∈ rule.declarations, ∃ name, Passes [] d.value.toList name := by
      refine passes_of_entryRule h ?_ ?_
      · rintro rfl style hstyle
        obtain ⟨text, htext, rfl⟩ := Option.map_eq_some_iff.mp hdescriptor
        obtain rfl := Json.obj.inj hstyle
        exact htypography n hn text htext
      · exact isPlain_weight hdescriptor
    intro d hd
    have hmem := (sublist_properties h).subset (List.mem_map_of_mem hd)
    exact ⟨kind.label_of_mem_properties _ hmem, hvalues d hd⟩

/-- **The rules read in the style sheet of a forest are the global ones and then one for each
style**, in the order of the registry: it selects the class of the style and gives some of the
properties of its kind, each once and in their order, the values that `entryRule` gives.  Every
typography must be enclosed. -/
theorem read_text_ofForest (h : ofRegistry (.ofForest forest) = .ok sheet)
    (htypography : ∀ n ∈ Tree.preorderAll forest, ∀ text, n.textContent? = some text →
      Typography.Enclosed text.style) :
    SheetReader.read sheet.text = globalRules ++ sheet.rules
      ∧ List.Forall₂ (fun entry rule => ∃ kind,
          entry ∈ ((StyleRegistry.ofForest forest).table kind).entries
            ∧ entryRule kind entry = .ok rule ∧ rule.selector = "." ++ entry.className
            ∧ (rule.declarations.map Declaration.property).Sublist kind.properties)
        (StyleRegistry.ofForest forest).entries sheet.rules := by
  have hrules := rules_forall₂ h
  constructor
  · apply SheetReader.read_text_of_legible
    intro rule hrule
    obtain ⟨entry, -, kind, hentry, heq⟩ := exists_of_forall₂_of_mem hrules hrule
    exact legible_of_entryRule heq hentry htypography
  · exact hrules.imp fun entry rule ⟨kind, hentry, heq⟩ =>
      ⟨kind, hentry, heq, selector_eq heq, sublist_properties heq⟩

/-- A forest of one text in the given style. -/
def forestOf (style : Fields) : List (Tree Node) :=
  [Node.place .zero .zero (.leaf { SourceNode.blank with type := textKind, style := some style })]

/-- The text of a forest is in its style. -/
theorem style_of_mem_forestOf {style : Fields} {n : Node} {text : TextContent}
    (hn : n ∈ Tree.preorderAll (forestOf style)) (htext : n.textContent? = some text) :
    text.style = style := by
  obtain rfl := List.mem_singleton.mp hn
  exact congrArg TextContent.style (Option.some.inj htext).symm

/-- A family with a mark and curly brackets in it stays in its string. -/
theorem read_text_bracedFamily :
    ∃ sheet, ofRegistry (.ofForest (forestOf
        [("fontFamily", .str "A\"; \x7d B \x7b"), ("fontSize", .int 16)])) = .ok sheet
      ∧ SheetReader.read sheet.text = globalRules ++ [⟨".ts-0",
        [⟨"font-family", "\"A\\\"; \x7d B \x7b\", system-ui, -apple-system, sans-serif"⟩,
          ⟨"font-size", "16px"⟩]⟩] := by
  have hsheet : ofRegistry (.ofForest (forestOf
      [("fontFamily", .str "A\"; \x7d B \x7b"), ("fontSize", .int 16)]))
      = .ok ⟨[⟨".ts-0",
        [⟨"font-family", "\"A\\\"; \x7d B \x7b\", system-ui, -apple-system, sans-serif"⟩,
          ⟨"font-size", "16px"⟩]⟩]⟩ := by
    rfl
  have hplain : Typography.PlainMetrics
      [("fontFamily", .str "A\"; \x7d B \x7b"), ("fontSize", .int 16)] := by decide
  have hfamily : SheetReader.Unbroken (Json.str "A\"; \x7d B \x7b").shown := by decide
  refine ⟨_, hsheet, (read_text_ofForest hsheet fun n hn text htext => ?_).1⟩
  rw [style_of_mem_forestOf hn htext]
  exact ⟨hplain.unmarked, hfamily⟩

/-- A size with marks in it adds a rule, and a line break in a family ends its string. -/
theorem exists_read_text_ne :
    (∃ sheet, ofRegistry (.ofForest (forestOf
          [("fontSize", .str "1px;\x7dbody\x7bdisplay:none")])) = .ok sheet
        ∧ SheetReader.read sheet.text ≠ globalRules ++ sheet.rules)
      ∧ ∃ sheet, ofRegistry (.ofForest (forestOf [("fontFamily", .str "A\nB;\x7d")])) = .ok sheet
        ∧ SheetReader.read sheet.text ≠ globalRules ++ sheet.rules := by
  simp only [SheetReader.read_text_eq, ne_eq, List.append_cancel_left_eq]
  exact ⟨⟨_, rfl, by decide +kernel⟩, ⟨_, rfl, by decide +kernel⟩⟩

end Stylesheet

end FrameExport
