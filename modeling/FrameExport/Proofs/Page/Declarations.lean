import FrameExport.Proofs.Page.Boxes
import FrameExport.Proofs.Page.Contents
import FrameExport.Proofs.Style.History
import FrameExport.Proofs.Text.Plain

/-!
# What stands in the attributes of a page

The declarations and classes of a page are written into attributes as they are.  Those of a box and
a section are plain, whatever the node, and so are the classes, whatever happened to the registry;
only the metrics of a text come from values that may be anything.  So no attribute of a page ends
early if no metrics of a shown text have a quotation mark (`Page.quoteFree_ofForest`).
-/

namespace FrameExport

open Text

/-! ### Plain declarations -/

/-- A declaration of plain characters. -/
def Declaration.Plain (d : Declaration) : Prop := Word d.property.toList ∧ Text.Plain d.value.toList

instance (d : Declaration) : Decidable d.Plain := inferInstanceAs (Decidable (_ ∧ _))

theorem Declaration.plain_mk {property value : String} (hproperty : Word property.toList)
    (hvalue : Text.Plain value.toList) : Declaration.Plain ⟨property, value⟩ := ⟨hproperty, hvalue⟩

namespace Declaration

variable {c : Char} {ds : List Declaration}

/-- A character that is neither plain nor a mark of declarations does not occur in plain ones. -/
theorem notMem_writeAll (h : ∀ d ∈ ds, d.Plain) (hplain : isPlainChar c = false) (hcolon : c ≠ ':')
    (hsemicolon : c ≠ ';') : c ∉ writeAll ds := by
  intro hmem
  obtain ⟨d, hd, hc⟩ := List.mem_flatMap.mp hmem
  obtain ⟨hproperty, hvalue⟩ := h d hd
  rw [write, List.mem_append, List.mem_cons, List.mem_append, List.mem_singleton] at hc
  rcases hc with hc | hc | hc | hc
  · exact hproperty.plain.notMem hplain hc
  · exact hcolon hc
  · exact hvalue.notMem hplain hc
  · exact hsemicolon hc

theorem quote_notMem_writeAll (h : ∀ d ∈ ds, d.Plain) : '"' ∉ writeAll ds :=
  notMem_writeAll h (by decide) (by decide) (by decide)

end Declaration

namespace Node

variable {n : Node} {registry : StyleRegistry}

theorem plain_pixels {property : String} (hproperty : Word property.toList) (x : Double) :
    Declaration.Plain ⟨property, pixels x⟩ :=
  Declaration.plain_mk hproperty (word_pixels x).plain

theorem plain_radiusDeclarations (n : Node) : ∀ d ∈ n.radiusDeclarations, d.Plain := by
  intro d hd
  have hproperty : Word "border-radius".toList := by decide
  rw [radiusDeclarations, List.mem_append, Option.mem_toList, Option.mem_toList,
    Option.map_eq_some_iff, Option.map_eq_some_iff] at hd
  rcases hd with ⟨r, -, rfl⟩ | ⟨rs, -, rfl⟩
  · exact ⟨hproperty, (word_pixels r).plain⟩
  · refine ⟨hproperty, Word.plain ?_⟩
    have hall : Word (" ".toList.intercalate ((rs.toList.map pixels).map String.toList)) := by
      refine word_intercalate (by decide) ?_
      intro cs hcs
      rw [List.map_map] at hcs
      obtain ⟨r, -, rfl⟩ := List.mem_map.mp hcs
      exact word_pixels r
    simpa only [String.toList_intercalate] using hall

theorem plain_boxDeclarations (n : Node) : ∀ d ∈ n.boxDeclarations, d.Plain := by
  have hopacity : ∀ d ∈ n.opacityDeclarations, d.Plain := by
    intro d hd
    unfold opacityDeclarations at hd
    split at hd
    · cases hd
    · have hvalue : Word (String.ofList n.opacity.writePlain).toList := by
        rw [String.toList_ofList]
        exact n.opacity.word_writePlain
      rw [List.mem_singleton.mp hd]
      exact Declaration.plain_mk (by decide) hvalue.plain
  simp only [boxDeclarations, List.forall_mem_append, List.forall_mem_cons]
  exact ⟨⟨⟨plain_pixels (by decide) _, plain_pixels (by decide) _, plain_pixels (by decide) _,
    plain_pixels (by decide) _, fun d hd => absurd hd List.not_mem_nil⟩, hopacity⟩,
    n.plain_radiusDeclarations⟩

theorem plain_sectionDeclarations (n : Node) : ∀ d ∈ n.sectionDeclarations, d.Plain := by
  have hradius := n.plain_radiusDeclarations
  simp only [sectionDeclarations, List.forall_mem_append, List.forall_mem_cons]
  refine ⟨⟨plain_pixels (by decide) _, plain_pixels (by decide) _, by decide,
    fun d hd => absurd hd List.not_mem_nil⟩, ?_⟩
  -- the corners are cut off only where there are some
  split
  · exact fun d hd => absurd hd List.not_mem_nil
  · rename_i radius _
    rw [List.forall_mem_append]
    exact ⟨hradius, by decide⟩

/-! ### Paragraphs -/

theorem plain_textColor {color : String} (h : n.textColor = .ok color) :
    Text.Plain color.toList := by
  have hdefault : ∀ s : String, Except.ok "#333333" = (Except.ok s : Except Fault String) →
      Text.Plain s.toList := by
    intro s hs
    rw [← Except.ok.inj hs]
    decide
  unfold textColor at h
  split at h
  · split at h
    · rename_i paint _ _
      cases hpaint : Paint.color (.obj paint) with
      | error fault =>
        rw [hpaint] at h
        cases h
      | ok c =>
        rw [hpaint] at h
        rw [← Except.ok.inj h]
        exact c.plain_text
    · exact hdefault color h
  · exact hdefault color h

/-- The paragraph of a text has its characters, and besides its metrics only plain declarations. -/
theorem paragraph_eq_ok {text : TextContent} {p : Paragraph} (h : n.paragraph text = .ok p) :
    p.characters = text.characters
      ∧ ∃ own, p.style = own ++ Typography.metrics text.style ∧ ∀ d ∈ own, d.Plain := by
  obtain ⟨color, hcolor, h⟩ := bind_eq_ok_iff.mp h
  rw [← Except.ok.inj h]
  refine ⟨rfl, _, rfl, ?_⟩
  simp only [List.forall_mem_cons]
  exact ⟨by decide, by decide, by decide,
    Declaration.plain_mk (by decide) (Typography.word_alignment _).plain,
    Declaration.plain_mk (by decide) (plain_textColor hcolor),
    fun d hd => absurd hd List.not_mem_nil⟩

end Node

/-- Metrics that are null, truth values or numbers are plain declarations. -/
theorem Typography.PlainMetrics.plain {style : Fields} (h : PlainMetrics style) :
    ∀ d ∈ metrics style, d.Plain := by
  intro d hd
  obtain ⟨hproperty, key, hkey, unit, hunit, hvalue⟩ := exists_key_of_mem_metrics hd
  have hproperties : ∀ property ∈ metricProperties, Word property.toList := by decide
  have hunits : ∀ unit ∈ ["px", ""], Word unit.toList := by decide
  refine ⟨hproperties _ hproperty, Word.plain ?_⟩
  rw [hvalue, word_append]
  exact ⟨Json.word_styled (h key hkey), hunits unit hunit⟩

/-! ### Classes -/

namespace Node

variable {ops : List StyleRegistry.Operation} {n : Node} {className : String}

/-- What is found in a registry, whatever happened to it, is a word. -/
theorem word_of_classOf? {d? : Option Descriptor}
    (h : d?.bind (StyleRegistry.after ops).classOf? = some className) : Word className.toList := by
  obtain ⟨d, -, hclass⟩ := Option.bind_eq_some_iff.mp h
  obtain ⟨i, rfl⟩ := StyleRegistry.exists_className_of_classOf? hclass
  exact d.kind.word_className i

theorem word_areaClasses (h : className ∈ n.areaClasses (.after ops)) : Word className.toList := by
  rw [areaClasses, List.mem_append, Option.mem_toList, Option.mem_toList] at h
  rcases h with hfill | hstroke
  · unfold fillClass? at hfill
    split at hfill
    · cases hfill
    · exact word_of_classOf? hfill
  · exact word_of_classOf? hstroke

theorem word_textClass? (h : n.textClass? (.after ops) = some className) :
    Word className.toList :=
  word_of_classOf? h

end Node

/-- Classes that are words are written without quotation marks. -/
theorem quote_notMem_writeClasses {classes : List String} (h : ∀ c ∈ classes, Word c.toList) :
    '"' ∉ writeClasses classes := by
  refine (word_intercalate (by decide) ?_).plain.notMem (by decide)
  intro cs hcs
  obtain ⟨c, hc, rfl⟩ := List.mem_map.mp hcs
  exact h c hc

/-! ### Attributes of a page -/

namespace Node

variable {ops : List StyleRegistry.Operation} {n : Node}

/-- The metrics of the text of a node, if it has one, have no quotation mark. -/
def MetricsQuoteFree (n : Node) : Prop :=
  ∀ text, n.textContent? = some text → '"' ∉ Declaration.writeAll (Typography.metrics text.style)

theorem quoteFree_box {b : Box} (h : n.box (.after ops) = .ok b) (hmetrics : n.MetricsQuoteFree) :
    b.QuoteFree := by
  obtain ⟨-, hclasses⟩ := box_eq_ok h
  have hwords : ∀ c ∈ b.classes, Word c.toList := by
    rw [hclasses]
    simp only [List.forall_mem_cons, List.forall_mem_append]
    exact ⟨by decide, fun c hc => word_areaClasses hc,
      fun c hc => word_textClass? (Option.mem_toList.mp hc)⟩
  refine ⟨quote_notMem_writeClasses hwords, ?_⟩
  rcases box_cases h with ⟨-, hstyle, hnone⟩ | ⟨text, p, htext, hp, hstyle, hsome⟩
  · rw [hstyle, hnone]
    exact ⟨Declaration.quote_notMem_writeAll n.plain_boxDeclarations, fun p hp => by cases hp⟩
  · obtain ⟨-, own, hown, hplain⟩ := paragraph_eq_ok hp
    rw [hstyle, hsome]
    constructor
    · apply Declaration.quote_notMem_writeAll
      rw [List.forall_mem_append]
      exact ⟨n.plain_boxDeclarations, by decide⟩
    · rintro _ ⟨⟩
      rw [hown, Declaration.writeAll, List.flatMap_append, List.mem_append, not_or]
      exact ⟨Declaration.quote_notMem_writeAll hplain, hmetrics text htext⟩

theorem quoteFree_pageSection {root : Tree Node} {s : Section}
    (h : pageSection (.after ops) root = .ok s)
    (hmetrics : ∀ n ∈ shownAll root.children, n.MetricsQuoteFree) : s.QuoteFree := by
  obtain ⟨bs, hbs, h⟩ := bind_eq_ok_iff.mp h
  rw [← Except.ok.inj h]
  refine ⟨quote_notMem_writeClasses ?_,
    Declaration.quote_notMem_writeAll root.value.plain_sectionDeclarations, ?_⟩
  · rw [List.forall_mem_cons]
    exact ⟨by decide, fun c hc => word_areaClasses hc⟩
  · intro b hb
    obtain ⟨n, hn, hbox⟩ := exists_of_forall₂_of_mem (boxesAll_forall₂ hbs) hb
    exact quoteFree_box hbox (hmetrics n hn)

end Node

/-- No attribute of a page ends early, whatever happened to the registry, if no metrics of a shown
text have a quotation mark. -/
theorem Page.quoteFree_ofForest {ops : List StyleRegistry.Operation} {title : String}
    {forest : List (Tree Node)} {page : Page} (h : ofForest title (.after ops) forest = .ok page)
    (hmetrics : ∀ root ∈ forest, ∀ n ∈ Node.shownAll root.children, n.MetricsQuoteFree) :
    ∀ s ∈ page.sections, s.QuoteFree := by
  obtain ⟨sections, hsections, h⟩ := bind_eq_ok_iff.mp h
  rw [← Except.ok.inj h]
  intro s hs
  obtain ⟨root, hroot, hsection⟩ := exists_of_forall₂_of_mem (mapM_eq_ok_iff.mp hsections) hs
  exact Node.quoteFree_pageSection hsection (hmetrics root hroot)

end FrameExport
