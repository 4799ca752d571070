import FrameExport.Proofs.Markup.Content
import FrameExport.Proofs.Markup.Escape
import Mathlib.Data.List.Forall2

/-!
# The contents of a page

`Page.contents` is what the text of a page consists of: the elements of the head, and in the body a
section for every root with the elements of its boxes, the blanks and line ends between them
included.  A reader of markup finds exactly this in the chars (`Page.denotes_write`), provided that
no class and no declaration has a quotation mark: these are written as they are, and everything else
is escaped.
-/

namespace FrameExport

open Markup

/-! ### Contents -/

/-- The attributes of the element of a box. -/
def Box.attributes (box : Box) : List (List Char × List Char) :=
  [("id".toList, "node-".toList ++ escapeQuoted box.id),
    ("class".toList, writeClasses box.classes),
    ("style".toList, Declaration.writeAll box.style)]

/-- The line of a paragraph. -/
def Paragraph.contents (depth : Nat) (p : Paragraph) : List Content :=
  chars (Box.indent depth)
    ++ [.element "p".toList [("style".toList, Declaration.writeAll p.style)]
        (chars (escape p.characters))]
    ++ chars ['\n']

mutual

/-- The lines of a box with what lies in it. -/
def Box.contents (depth : Nat) : Tree Box → List Content
  | .node box children =>
    match box.paragraph, children with
    | none, [] =>
      chars (indent depth) ++ [.element "div".toList box.attributes []] ++ chars ['\n']
    | paragraph, children =>
      chars (indent depth)
        ++ [.element "div".toList box.attributes
            (chars ['\n'] ++ (paragraph.map (Paragraph.contents (depth + 1))).getD []
              ++ contentsAll (depth + 1) children ++ chars (indent depth))]
        ++ chars ['\n']

/-- The lines of boxes in a row. -/
def Box.contentsAll (depth : Nat) : List (Tree Box) → List Content
  | [] => []
  | t :: ts => contents depth t ++ contentsAll depth ts

end

/-- The attributes of the element of a section. -/
def Section.attributes (s : Section) : List (List Char × List Char) :=
  [("class".toList, writeClasses s.classes),
    ("id".toList, "page-".toList ++ escapeQuoted s.id),
    ("style".toList, Declaration.writeAll s.style)]

/-- The element of a section. -/
def Section.content (s : Section) : Content :=
  .element "section".toList s.attributes (chars ['\n'] ++ Box.contentsAll 1 s.boxes)

namespace Page

/-- The element of the head. -/
def head (page : Page) : Content :=
  .element "head".toList []
    (chars "\n  ".toList
      ++ [.element "meta".toList [("charset".toList, "UTF-8".toList)] []]
      ++ chars "\n  ".toList
      ++ [.element "title".toList [] (chars (escape page.title))]
      ++ chars "\n  ".toList
      ++ [.element "link".toList
          [("rel".toList, "stylesheet".toList), ("href".toList, "styles.css".toList)] []]
      ++ chars "\n  ".toList
      ++ [.element "meta".toList [("name".toList, "viewport".toList),
          ("content".toList, "width=device-width, initial-scale=1".toList)] []]
      ++ chars ['\n'])

/-- The element of the body. -/
def body (page : Page) : Content :=
  .element "body".toList []
    (chars ['\n'] ++ (chars ['\n', '\n']).intercalate (page.sections.map fun s => [s.content])
      ++ chars ['\n'])

/-- The contents of a page. -/
def contents (page : Page) : List Content :=
  [.remark] ++ chars ['\n']
    ++ [.element "html".toList [("lang".toList, "en".toList)]
        (chars ['\n'] ++ [page.head] ++ chars ['\n'] ++ [page.body] ++ chars ['\n'])]
    ++ chars ['\n']

end Page

/-! ### Boxes -/

/-- No class and no declaration of the box ends the attribute in which it stands. -/
def Box.QuoteFree (box : Box) : Prop :=
  '"' ∉ writeClasses box.classes ∧ '"' ∉ Declaration.writeAll box.style
    ∧ ∀ p ∈ box.paragraph, '"' ∉ Declaration.writeAll p.style

theorem Box.reads_openTag {box : Box} (h : box.QuoteFree) :
    Reads .content box.openTag [.opening "div".toList box.attributes] .content := by
  obtain ⟨hclasses, hstyle, -⟩ := h
  have hbegin : Reads .content "<div id=\"node-".toList []
      (.quotedValue '"' ⟨false, "div".toList, []⟩ "id".toList "node-".toList) := rfl
  have hclass : ∀ id, Reads (.quotedValue '"' ⟨false, "div".toList, []⟩ "id".toList id)
      "\" class=\"".toList []
      (.quotedValue '"' ⟨false, "div".toList, [("id".toList, id)]⟩ "class".toList []) :=
    fun _ => rfl
  have hstyle' : ∀ id classes, Reads
      (.quotedValue '"' ⟨false, "div".toList, [("id".toList, id)]⟩ "class".toList classes)
      "\" style=\"".toList []
      (.quotedValue '"' ⟨false, "div".toList, [("id".toList, id), ("class".toList, classes)]⟩
        "style".toList []) :=
    fun _ _ => rfl
  have hend : ∀ id classes style, Reads
      (.quotedValue '"' ⟨false, "div".toList, [("id".toList, id), ("class".toList, classes)]⟩
        "style".toList style) "\">".toList
      [.opening "div".toList
        [("id".toList, id), ("class".toList, classes), ("style".toList, style)]] .content :=
    fun _ _ _ => rfl
  exact (((((hbegin.append (Reads.value _ _ _ (quote_notMem_escapeQuoted box.id))).append
    (hclass _)).append (Reads.value _ _ _ hclasses)).append (hstyle' _ _)).append
    (Reads.value _ _ _ hstyle)).append (hend _ _ _)

theorem lt_notMem_indent (depth : Nat) : '<' ∉ Box.indent depth := by
  intro h
  exact absurd (List.eq_of_mem_replicate h) (by decide)

theorem denotes_newline : Denotes ['\n'] (chars ['\n']) := .chars (by decide)

/-- An element on a line of its own. -/
theorem denotes_line {cs : List Char} {v : Content} (depth : Nat) (h : Denotes cs [v]) :
    Denotes (Box.indent depth ++ cs ++ ['\n'])
      (chars (Box.indent depth) ++ [v] ++ chars ['\n']) :=
  ((Denotes.chars (lt_notMem_indent depth)).append h).append denotes_newline

theorem Paragraph.denotes_write (depth : Nat) {p : Paragraph}
    (h : '"' ∉ Declaration.writeAll p.style) :
    Denotes (Box.writeParagraph depth p) (p.contents depth) := by
  have hbegin : Reads .content "<p style=\"".toList []
      (.quotedValue '"' ⟨false, "p".toList, []⟩ "style".toList []) := rfl
  have hend : ∀ style, Reads (.quotedValue '"' ⟨false, "p".toList, []⟩ "style".toList style)
      "\">".toList [.opening "p".toList [("style".toList, style)]] .content := fun _ => rfl
  have hopen := (hbegin.append (Reads.value _ _ [] h)).append (hend _)
  have hclose : Reads .content "</p>".toList [.closing "p".toList] .content := rfl
  have hline := denotes_line depth
    (.element (by decide) hopen hclose (.chars (lt_notMem_escape p.characters)))
  have hlast : "</p>\n".toList = "</p>".toList ++ ['\n'] := rfl
  simpa only [Box.writeParagraph, Paragraph.contents, hlast, List.append_assoc, List.nil_append]
    using hline

namespace Box

theorem reads_closeTag : Reads .content "</div>".toList [.closing "div".toList] .content := rfl

/-- The paragraph of a box, if it has one. -/
theorem denotes_paragraph (depth : Nat) {box : Box} (h : box.QuoteFree) :
    Denotes ((box.paragraph.map (writeParagraph depth)).getD [])
      ((box.paragraph.map (Paragraph.contents depth)).getD []) := by
  cases hp : box.paragraph with
  | none => exact .nil
  | some p => exact p.denotes_write depth (h.2.2 p hp)

/-- A box with the text `inner` in it. -/
theorem denotes_element (depth : Nat) {box : Box} {inner : List Char} {vs : List Content}
    (h : box.QuoteFree) (hinner : Denotes inner vs) :
    Denotes (indent depth ++ box.openTag ++ inner ++ "</div>\n".toList)
      (chars (indent depth) ++ [.element "div".toList box.attributes vs] ++ chars ['\n']) := by
  have hline := denotes_line depth
    (.element (by decide) (reads_openTag h) reads_closeTag hinner)
  have hlast : "</div>\n".toList = "</div>".toList ++ ['\n'] := rfl
  simpa only [hlast, List.append_assoc] using hline

mutual

/-- The text of a box is read as its contents. -/
theorem denotes_write : ∀ (depth : Nat) {t : Tree Box}, (∀ b ∈ t.preorder, b.QuoteFree) →
    Denotes (write depth t) (contents depth t)
  | depth, .node box children, h => by
    rw [Tree.preorder, List.forall_mem_cons] at h
    have hinner := ((denotes_newline.append (denotes_paragraph (depth + 1) h.1)).append
      (denotes_writeAll (depth + 1) h.2)).append (.chars (lt_notMem_indent depth))
    -- a box with nothing in it is closed on its line
    by_cases hnone : box.paragraph = none ∧ children = []
    · obtain ⟨hp, rfl⟩ := hnone
      rw [write.eq_1 _ _ hp, contents.eq_1 _ _ hp]
      simpa only [List.append_nil] using denotes_element depth h.1 .nil
    · have hsome : box.paragraph = none → children = [] → False :=
        fun hp hchildren => hnone ⟨hp, hchildren⟩
      rw [write.eq_2 _ _ _ hsome, contents.eq_2 _ _ _ hsome]
      simpa only [List.append_assoc] using denotes_element depth h.1 hinner

theorem denotes_writeAll : ∀ (depth : Nat) {ts : List (Tree Box)},
    (∀ b ∈ Tree.preorderAll ts, b.QuoteFree) → Denotes (writeAll depth ts) (contentsAll depth ts)
  | _, [], _ => .nil
  | depth, t :: ts, h => by
    rw [Tree.preorderAll, List.forall_mem_append] at h
    exact (denotes_write depth h.1).append (denotes_writeAll depth h.2)

end

end Box

/-! ### Sections and pages -/

/-- No class and no declaration in the section ends the attribute in which it stands. -/
def Section.QuoteFree (s : Section) : Prop :=
  '"' ∉ writeClasses s.classes ∧ '"' ∉ Declaration.writeAll s.style
    ∧ ∀ b ∈ Tree.preorderAll s.boxes, b.QuoteFree

theorem Section.denotes_write {s : Section} (h : s.QuoteFree) : Denotes s.write [s.content] := by
  obtain ⟨hclasses, hstyle, hboxes⟩ := h
  have hbegin : Reads .content "<section class=\"".toList []
      (.quotedValue '"' ⟨false, "section".toList, []⟩ "class".toList []) := rfl
  have hid : ∀ classes, Reads
      (.quotedValue '"' ⟨false, "section".toList, []⟩ "class".toList classes)
      "\" id=\"page-".toList []
      (.quotedValue '"' ⟨false, "section".toList, [("class".toList, classes)]⟩ "id".toList
        "page-".toList) :=
    fun _ => rfl
  have hstyle' : ∀ classes id, Reads
      (.quotedValue '"' ⟨false, "section".toList, [("class".toList, classes)]⟩ "id".toList id)
      "\" style=\"".toList []
      (.quotedValue '"' ⟨false, "section".toList, [("class".toList, classes), ("id".toList, id)]⟩
        "style".toList []) :=
    fun _ _ => rfl
  have hend : ∀ classes id style, Reads
      (.quotedValue '"' ⟨false, "section".toList, [("class".toList, classes), ("id".toList, id)]⟩
        "style".toList style) "\">".toList
      [.opening "section".toList
        [("class".toList, classes), ("id".toList, id), ("style".toList, style)]] .content :=
    fun _ _ _ => rfl
  have hopen := (((((hbegin.append (Reads.value _ _ [] hclasses)).append (hid _)).append
    (Reads.value _ _ _ (quote_notMem_escapeQuoted s.id))).append (hstyle' _ _)).append
    (Reads.value _ _ [] hstyle)).append (hend _ _ _)
  have hclose : Reads .content "</section>".toList [.closing "section".toList] .content := rfl
  have hall := Denotes.element (by decide) hopen hclose
    (denotes_newline.append (Box.denotes_writeAll 1 hboxes))
  have hfirst : "\">\n".toList = "\">".toList ++ ['\n'] := rfl
  unfold Section.write Section.content Section.attributes
  simpa only [hfirst, List.append_assoc, List.nil_append] using hall

namespace Page

variable {page : Page}

theorem denotes_head (page : Page) :
    Denotes ("<head>".toList ++ (("\n  ".toList ++ "<meta charset=\"UTF-8\" />".toList
        ++ "\n  ".toList ++ ("<title>".toList ++ (escape page.title ++ "</title>".toList))
        ++ "\n  ".toList ++ "<link rel=\"stylesheet\" href=\"styles.css\" />".toList
        ++ "\n  ".toList
        ++ "<meta name=\"viewport\" content=\"width=device-width, initial-scale=1\" />".toList
        ++ ['\n']) ++ "</head>".toList)) [page.head] := by
  have hgap : Denotes "\n  ".toList (chars "\n  ".toList) := .chars (by decide)
  have hcharset : Denotes "<meta charset=\"UTF-8\" />".toList
      [.element "meta".toList [("charset".toList, "UTF-8".toList)] []] := .empty (by decide) rfl
  have htitle : Denotes ("<title>".toList ++ (escape page.title ++ "</title>".toList))
      [.element "title".toList [] (chars (escape page.title))] :=
    .textElement (by decide) rfl rfl (lt_notMem_escape page.title)
  have hlink : Denotes "<link rel=\"stylesheet\" href=\"styles.css\" />".toList
      [.element "link".toList
        [("rel".toList, "stylesheet".toList), ("href".toList, "styles.css".toList)] []] :=
    .empty (by decide) (by decide +kernel)
  have hviewport : Denotes
      "<meta name=\"viewport\" content=\"width=device-width, initial-scale=1\" />".toList
      [.element "meta".toList [("name".toList, "viewport".toList),
        ("content".toList, "width=device-width, initial-scale=1".toList)] []] :=
    .empty (by decide) (by decide +kernel)
  exact .element (by decide) rfl rfl
    ((((((((hgap.append hcharset).append hgap).append htitle).append hgap).append hlink).append
      hgap).append hviewport).append denotes_newline)

theorem denotes_body (page : Page) (h : ∀ s ∈ page.sections, s.QuoteFree) :
    Denotes ("<body>".toList ++ ((['\n']
        ++ ['\n', '\n'].intercalate (page.sections.map Section.write) ++ ['\n'])
      ++ "</body>".toList)) [page.body] := by
  have hsections : List.Forall₂ Denotes (page.sections.map Section.write)
      (page.sections.map fun s => [s.content]) := by
    rw [List.forall₂_map_left_iff, List.forall₂_map_right_iff, List.forall₂_same]
    exact fun s hs => Section.denotes_write (h s hs)
  exact .element (by decide) rfl rfl
    ((denotes_newline.append (.intercalate (.chars (by decide)) hsections)).append
      denotes_newline)

/-- The text of a page is read as its contents. -/
theorem denotes_write (page : Page) (h : ∀ s ∈ page.sections, s.QuoteFree) :
    Denotes page.write page.contents := by
  have hdoctype : Denotes "<!doctype html>".toList [.remark] := .remark rfl
  have hopen : Reads .content "<html lang=\"en\">".toList
      [.opening "html".toList [("lang".toList, "en".toList)]] .content := rfl
  have hclose : Reads .content "</html>".toList [.closing "html".toList] .content := rfl
  have hhtml := Denotes.element (by decide) hopen hclose
    ((((denotes_newline.append page.denotes_head).append denotes_newline).append
      (page.denotes_body h)).append denotes_newline)
  have hall := ((hdoctype.append denotes_newline).append hhtml).append denotes_newline
  have hopening : opening = "<!doctype html>".toList ++ (['\n'] ++ ("<html lang=\"en\">".toList
      ++ (['\n'] ++ ("<head>".toList ++ ("\n  ".toList ++ ("<meta charset=\"UTF-8\" />".toList
      ++ ("\n  ".toList ++ "<title>".toList))))))) := by decide +kernel
  have hafter : afterTitle = "</title>".toList ++ ("\n  ".toList
      ++ ("<link rel=\"stylesheet\" href=\"styles.css\" />".toList ++ ("\n  ".toList
      ++ ("<meta name=\"viewport\" content=\"width=device-width, initial-scale=1\" />".toList
      ++ (['\n'] ++ ("</head>".toList ++ (['\n'] ++ ("<body>".toList ++ ['\n'])))))))) := by
    decide +kernel
  have hclosing : closing = ['\n'] ++ ("</body>".toList ++ (['\n'] ++ ("</html>".toList
      ++ ['\n']))) := by
    decide +kernel
  unfold write contents
  rw [hopening, hafter, hclosing]
  simpa only [List.append_assoc] using hall

end Page

end FrameExport
