import FrameExport.Proofs.Page.Declarations
import FrameExport.Proofs.Rendering.Appearance
import FrameExport.Proofs.Tree

/-!
# The tags of a page

`Markup.marks` is what a reader of markup sees of the tags of a text: their names and the names of
the attributes in them, in order.  For the page of a rendering these are written by the page itself:
they follow from the types of the nodes of the frame and how these lie in each other (`frameMarks`).

The headline is `marks_eq_of_map_type_eq`: two frames of one shape and the same types give pages
with the same tags, whatever texts the files have.  Size, weight, line height and spacing of a text
are the exception: they are written into an attribute as they are, so none of them may have a
quotation mark (`marks_ne_of_quotedSize`).
-/

namespace FrameExport

open Markup

namespace Markup

/-! ### Marks -/

/-- What is seen of a tag: its name and the names of the attributes in it. -/
inductive Mark where
  | opens (name : List Char) (attributes : List (List Char))
  | closes (name : List Char)
  | remark
deriving DecidableEq, Repr

/-- What is seen of a token, unless it is a character. -/
def Token.mark? : Token → Option Mark
  | .char _ => none
  | .opening name attributes => some (.opens name (attributes.map Prod.fst))
  | .closing name => some (.closes name)
  | .remark => some .remark

/-- What is seen of the tags of a text. -/
def marks (cs : List Char) : List Mark := (tokens cs).filterMap Token.mark?

/-- What is seen of the tags of contents. -/
def marksOf (vs : List Content) : List Mark := (tokensOf vs).filterMap Token.mark?

variable {vs ws : List Content} {name : List Char} {attributes : List (List Char × List Char)}

theorem marksOf_append (vs ws : List Content) : marksOf (vs ++ ws) = marksOf vs ++ marksOf ws := by
  rw [marksOf, tokensOf_append, List.filterMap_append]
  rfl

theorem marksOf_chars (cs : List Char) : marksOf (chars cs) = [] := by
  rw [marksOf, tokensOf_chars, List.filterMap_map]
  exact List.filterMap_eq_nil_iff.mpr fun c _ => rfl

theorem marksOf_element (hname : neverHolds.contains name = false) :
    marksOf [.element name attributes vs]
      = .opens name (attributes.map Prod.fst) :: (marksOf vs ++ [.closes name]) := by
  have hopen : Token.mark? (.opening name attributes)
      = some (.opens name (attributes.map Prod.fst)) := rfl
  rw [marksOf, tokensOf_element hname, List.filterMap_cons_some hopen, List.filterMap_append]
  rfl

/-- An element on a line of its own. -/
theorem marksOf_line (depth : Nat) (vs : List Content) :
    marksOf (chars (Box.indent depth) ++ vs ++ chars ['\n']) = marksOf vs := by
  rw [marksOf_append, marksOf_append, marksOf_chars, marksOf_chars, List.nil_append,
    List.append_nil]

end Markup

/-! ### Boxes -/

namespace Node

/-- The tags around the characters of a text. -/
def paragraphMarks : List Mark := [.opens "p".toList ["style".toList], .closes "p".toList]

mutual

/-- The tags of a tree of which only the types are known. -/
def marksOfTypes : Tree String → List Mark
  | .node type children =>
    .opens "div".toList ["id".toList, "class".toList, "style".toList]
      :: ((if type = textKind then paragraphMarks else marksOfTypesAll children)
        ++ [.closes "div".toList])

/-- The tags of several such trees. -/
def marksOfTypesAll : List (Tree String) → List Mark
  | [] => []
  | t :: ts => marksOfTypes t ++ marksOfTypesAll ts

end

variable {registry : StyleRegistry} {n : Node}

/-- A node that holds characters is one of the kind that does. -/
theorem type_of_textContent? {text : TextContent} (h : n.textContent? = some text) :
    n.type = textKind := by
  unfold textContent? at h
  split at h
  · assumption
  · cases h

/-- The tags of a box are around its paragraph and the tags of what lies in it. -/
theorem marksOf_contents_node (depth : Nat) (b : Box) (below : List (Tree Box)) :
    marksOf (Box.contents depth (.node b below))
      = .opens "div".toList ["id".toList, "class".toList, "style".toList]
        :: ((if b.paragraph.isSome then paragraphMarks else [])
          ++ marksOf (Box.contentsAll (depth + 1) below) ++ [.closes "div".toList]) := by
  have hdiv : neverHolds.contains "div".toList = false := by decide
  have hparagraph : marksOf ((b.paragraph.map (Paragraph.contents (depth + 1))).getD [])
      = if b.paragraph.isSome then paragraphMarks else [] := by
    cases b.paragraph with
    | none => rfl
    | some p =>
      show marksOf (p.contents (depth + 1)) = paragraphMarks
      rw [Paragraph.contents, marksOf_line, marksOf_element (by decide), marksOf_chars]
      rfl
  by_cases hempty : b.paragraph = none ∧ below = []
  · obtain ⟨hnone, rfl⟩ := hempty
    rw [Box.contents.eq_1 _ _ hnone, marksOf_line, marksOf_element hdiv, hnone]
    rfl
  · rw [Box.contents.eq_2 _ _ _ fun hp hbs => hempty ⟨hp, hbs⟩, marksOf_line,
      marksOf_element hdiv, marksOf_append, marksOf_append, marksOf_append, marksOf_chars,
      marksOf_chars, hparagraph, List.nil_append, List.append_nil]
    rfl

mutual

/-- The tags of the boxes of a tree follow from the types of its nodes. -/
theorem marksOf_contents : ∀ (depth : Nat) {t : Tree Node} {b : Tree Box},
    boxes registry t = .ok b →
      (∀ n ∈ t.preorder, n.type = textKind → n.textContent?.isSome) →
      marksOf (Box.contents depth b) = marksOfTypes (t.map Node.type)
  | depth, .node node children, b, h, htext => by
    rw [Tree.preorder, List.forall_mem_cons] at htext
    rw [boxes] at h
    obtain ⟨own, hown, h⟩ := bind_eq_ok_iff.mp h
    rw [Tree.map, marksOfTypes]
    rcases box_cases hown with ⟨hnone, -, hp⟩ | ⟨text, p, hsome, -, -, hp⟩
    · have htype : node.type ≠ textKind := by
        intro htype
        have hisSome := htext.1 htype
        rw [hnone] at hisSome
        cases hisSome
      have hnotText : ¬ node.isText = true := by
        rw [isText, hnone]
        exact Bool.false_ne_true
      rw [if_neg hnotText] at h
      obtain ⟨below, hbelow, h⟩ := bind_eq_ok_iff.mp h
      rw [← Except.ok.inj h, marksOf_contents_node, hp, if_neg htype,
        marksOf_contentsAll (depth + 1) hbelow htext.2]
      rfl
    -- below a text there are no tags but those of its paragraph
    · have hisText : node.isText = true := by
        rw [isText, hsome]
        rfl
      rw [if_pos hisText] at h
      rw [← Except.ok.inj h, Tree.leaf, marksOf_contents_node, hp,
        if_pos (type_of_textContent? hsome)]
      rfl

theorem marksOf_contentsAll : ∀ (depth : Nat) {ts : List (Tree Node)} {bs : List (Tree Box)},
    boxesAll registry ts = .ok bs →
      (∀ n ∈ Tree.preorderAll ts, n.type = textKind → n.textContent?.isSome) →
      marksOf (Box.contentsAll depth bs) = marksOfTypesAll (Tree.mapAll Node.type ts)
  | _, [], bs, h, _ => by
    rw [← Except.ok.inj h]
    rfl
  | depth, t :: ts, bs, h, htext => by
    rw [Tree.preorderAll, List.forall_mem_append] at htext
    rw [boxesAll] at h
    obtain ⟨first, hfirst, h⟩ := bind_eq_ok_iff.mp h
    obtain ⟨rest, hrest, h⟩ := bind_eq_ok_iff.mp h
    rw [← Except.ok.inj h, Box.contentsAll, marksOf_append, marksOf_contents depth hfirst htext.1,
      marksOf_contentsAll depth hrest htext.2]
    rfl

end

end Node

/-! ### Pages -/

namespace Page

/-- The tags of a page whose sections have the given tags. -/
def frameMarks (inner : List Mark) : List Mark :=
  [.remark, .opens "html".toList ["lang".toList], .opens "head".toList [],
    .opens "meta".toList ["charset".toList], .opens "title".toList [], .closes "title".toList,
    .opens "link".toList ["rel".toList, "href".toList],
    .opens "meta".toList ["name".toList, "content".toList], .closes "head".toList,
    .opens "body".toList []] ++ inner ++ [.closes "body".toList, .closes "html".toList]

theorem marksOf_contents (page : Page) :
    marksOf page.contents
      = frameMarks (marksOf
        ((chars ['\n', '\n']).intercalate (page.sections.map fun s => [s.content]))) := by
  have htitle : marksOf [.element "title".toList [] (chars (escape page.title))]
      = [.opens "title".toList [], .closes "title".toList] := by
    rw [marksOf_element (by decide), marksOf_chars]
    rfl
  have hgap : marksOf (chars "\n  ".toList) = [] := marksOf_chars _
  have hhead : marksOf [page.head]
      = [.opens "head".toList [], .opens "meta".toList ["charset".toList],
        .opens "title".toList [], .closes "title".toList,
        .opens "link".toList ["rel".toList, "href".toList],
        .opens "meta".toList ["name".toList, "content".toList], .closes "head".toList] := by
    rw [head, marksOf_element (by decide)]
    simp only [marksOf_append, htitle, hgap]
    rfl
  have hbody : marksOf [page.body] = .opens "body".toList [] :: (marksOf
      ((chars ['\n', '\n']).intercalate (page.sections.map fun s => [s.content]))
        ++ [.closes "body".toList]) := by
    rw [body, marksOf_element (by decide)]
    simp only [marksOf_append, marksOf_chars, List.nil_append, List.append_nil]
    rfl
  rw [contents]
  simp only [marksOf_append, marksOf_chars]
  rw [marksOf_element (by decide)]
  simp only [marksOf_append, marksOf_chars, hhead, hbody, List.nil_append, List.append_nil]
  simp [frameMarks, marksOf, tokensOf, Content.tokens, Token.mark?]

/-- The tags of the section of a root. -/
def sectionMarks (root : Tree String) : List Mark :=
  .opens "section".toList ["class".toList, "id".toList, "style".toList]
    :: (Node.marksOfTypesAll root.children ++ [.closes "section".toList])

theorem marksOf_content {registry : StyleRegistry} {root : Tree Node} {s : Section}
    (h : Node.pageSection registry root = .ok s)
    (htext : ∀ n ∈ root.preorder, n.type = textKind → n.textContent?.isSome) :
    marksOf [s.content] = sectionMarks (root.map Node.type) := by
  obtain ⟨bs, hbs, h⟩ := bind_eq_ok_iff.mp h
  obtain ⟨node, children⟩ := root
  rw [Tree.preorder, List.forall_mem_cons] at htext
  rw [← Except.ok.inj h, Section.content, marksOf_element (by decide), marksOf_append,
    marksOf_chars, List.nil_append, Node.marksOf_contentsAll 1 hbs htext.2]
  rfl

end Page

namespace Rendering

variable {file file' : Json} {rendering rendering' : Rendering} {root root' : Tree Node}

/-- No size, weight, line height or spacing of a shown text has a quotation mark where it is
written. -/
def QuoteFree (root : Tree Node) : Prop :=
  ∀ n ∈ Node.shownAll root.children, ∀ text, n.textContent? = some text →
    ∀ key ∈ Typography.metricKeys, '"' ∉ (text.style.get key).styled

theorem metricsQuoteFree (h : QuoteFree root) :
    ∀ n ∈ Node.shownAll root.children, n.MetricsQuoteFree := by
  intro n hn text htext hmem
  obtain ⟨d, hd, hquote⟩ := List.mem_flatMap.mp hmem
  obtain ⟨hproperty, key, hkey, unit, hunit, hvalue⟩ := Typography.exists_key_of_mem_metrics hd
  have hproperties : ∀ property ∈ Typography.metricProperties, '"' ∉ property.toList := by decide
  have hunits : ∀ unit ∈ ["px", ""], '"' ∉ unit.toList := by decide
  rw [Declaration.write, hvalue] at hquote
  simp [hproperties _ hproperty, h n hn text htext key hkey, hunits unit hunit] at hquote

theorem toList_html (rendering : Rendering) : rendering.html.toList = rendering.page.write :=
  String.toList_ofList

/-- The tags of a rendered page follow from the types of the nodes of the frame. -/
theorem marks_html (h : ofJson file = .ok rendering) (hroot : DesignFile.rootIn file = .ok root)
    (hquote : QuoteFree root) :
    marks rendering.html.toList = Page.frameMarks (Page.sectionMarks (root.map Node.type)) := by
  obtain ⟨root', s, hroot', hregistry, -, hsections, hs⟩ := exists_of_ofJson h
  obtain rfl : root = root' := Except.ok.inj (hroot.symm.trans hroot')
  have hfree : ∀ s ∈ rendering.page.sections, s.QuoteFree := by
    have hafter : rendering.registry = .after [.collect [root]] := hregistry
    rw [hafter] at hs
    rw [hsections, List.forall_mem_singleton]
    exact Node.quoteFree_pageSection hs (metricsQuoteFree hquote)
  have htext : ∀ n ∈ root.preorder, n.type = textKind → n.textContent?.isSome :=
    fun n hn htype => textContent?_isSome_of_rootIn hroot hn htype
  rw [toList_html, marks,
    Markup.tokens_eq (rendering.page.denotes_write hfree).reads]
  show marksOf rendering.page.contents = _
  rw [Page.marksOf_contents, hsections, List.map_singleton, List.intercalate_singleton,
    Page.marksOf_content hs htext]

/-- **Two frames of one shape and the same types give pages with the same tags**, whatever the files
say otherwise, if no size, weight, line height or spacing of a text has a quotation mark. -/
theorem marks_eq_of_map_type_eq (h : ofJson file = .ok rendering)
    (h' : ofJson file' = .ok rendering') (hroot : DesignFile.rootIn file = .ok root)
    (hroot' : DesignFile.rootIn file' = .ok root')
    (htypes : root.map Node.type = root'.map Node.type) (hquote : QuoteFree root)
    (hquote' : QuoteFree root') :
    marks rendering.html.toList = marks rendering'.html.toList := by
  rw [marks_html h hroot hquote, marks_html h' hroot' hquote', htypes]

/-- A file with a frame around a text of a size. -/
def fileOfSize (size : Json) : Json :=
  .obj [("document", .obj [("children", .arr [.obj [("children", .arr [.obj [
    ("type", .str "FRAME"), ("name", .str "Frame"),
    ("children", .arr [.obj [("type", .str "TEXT"),
      ("style", .obj [("fontSize", size)])]])]])]])])]

/-- Whatever the size, the frame is one around a text of that size. -/
theorem exists_root_fileOfSize (size : Json) :
    ∃ root, DesignFile.rootIn (fileOfSize size) = .ok root
      ∧ root.map Node.type = .node frameKind [.leaf textKind]
      ∧ ∀ n ∈ Node.shownAll root.children, ∀ text, n.textContent? = some text →
        text.style = [("fontSize", size)] := by
  refine ⟨_, rfl, rfl, fun n hn text htext => ?_⟩
  rw [List.mem_singleton.mp hn] at htext
  rw [← Option.some.inj htext]
  rfl

/-- A number for the size of a text leaves the tags as they are. -/
theorem marks_eq_of_numberSizes :
    ∃ rendering rendering', ofJson (fileOfSize (.int 16)) = .ok rendering
      ∧ ofJson (fileOfSize (.int 20)) = .ok rendering'
      ∧ marks rendering.html.toList = marks rendering'.html.toList := by
  have hquote : ∀ size root, DesignFile.rootIn (fileOfSize size) = .ok root →
      Typography.PlainMetrics [("fontSize", size)] → QuoteFree root := by
    intro size root hroot hplain n hn text htext key hkey
    obtain ⟨root', hroot', -, hstyle⟩ := exists_root_fileOfSize size
    obtain rfl := Except.ok.inj (hroot.symm.trans hroot')
    rw [hstyle n hn text htext]
    exact (Json.word_styled (hplain key hkey)).plain.notMem (by decide)
  obtain ⟨root, hroot, htypes, -⟩ := exists_root_fileOfSize (.int 16)
  obtain ⟨root', hroot', htypes', -⟩ := exists_root_fileOfSize (.int 20)
  obtain ⟨rendering, h⟩ : Returns (ofJson (fileOfSize (.int 16))) :=
    returns_of_isOk (by decide +kernel)
  obtain ⟨rendering', h'⟩ : Returns (ofJson (fileOfSize (.int 20))) :=
    returns_of_isOk (by decide +kernel)
  exact ⟨rendering, rendering', h, h', marks_eq_of_map_type_eq h h' hroot hroot'
    (htypes.trans htypes'.symm) (hquote _ _ hroot (by decide)) (hquote _ _ hroot' (by decide))⟩

/-- A size that is a text with a quotation mark in it adds tags of its own. -/
theorem marks_ne_of_quotedSize :
    ∃ root root' rendering rendering',
      DesignFile.rootIn (fileOfSize (.str "\"><b>")) = .ok root
        ∧ DesignFile.rootIn (fileOfSize (.str "16")) = .ok root'
        ∧ root.map Node.type = root'.map Node.type
        ∧ ofJson (fileOfSize (.str "\"><b>")) = .ok rendering
        ∧ ofJson (fileOfSize (.str "16")) = .ok rendering'
        ∧ marks rendering.html.toList ≠ marks rendering'.html.toList := by
  obtain ⟨root, hroot, htypes, -⟩ := exists_root_fileOfSize (.str "\"><b>")
  obtain ⟨root', hroot', htypes', -⟩ := exists_root_fileOfSize (.str "16")
  obtain ⟨rendering, h⟩ : Returns (ofJson (fileOfSize (.str "\"><b>"))) :=
    returns_of_isOk (by decide +kernel)
  obtain ⟨rendering', h'⟩ : Returns (ofJson (fileOfSize (.str "16"))) :=
    returns_of_isOk (by decide +kernel)
  have hmarks : (ofJson (fileOfSize (.str "\"><b>"))).toOption.map (fun r => marks r.page.write)
      ≠ (ofJson (fileOfSize (.str "16"))).toOption.map fun r => marks r.page.write := by
    decide +kernel
  refine ⟨root, root', rendering, rendering', hroot, hroot', htypes.trans htypes'.symm, h, h', ?_⟩
  rw [toList_html, toList_html]
  intro heq
  apply hmarks
  rw [h, h']
  exact congrArg some heq

end Rendering

end FrameExport
