import FrameExport.Page.Basic

/-!
# The text of a page

`Page.write` is the document that a browser reads.  Sections and boxes become elements that lie in
each other as the boxes do, each on a line of its own and indented by its depth; a paragraph stands
on one line, so that no character is added to the text in it.

The characters that have a meaning in markup are escaped in identifiers, in the title and in the
characters of a text.  Declarations stand in attributes as they are.
-/

namespace FrameExport

namespace Markup

/-- A character as it stands between tags. -/
def escapeChar (c : Char) : List Char :=
  if c = '&' then "&amp;".toList
  else if c = '<' then "&lt;".toList
  else if c = '>' then "&gt;".toList
  else [c]

/-- A text as it stands between tags. -/
def escape (s : String) : List Char := s.toList.flatMap escapeChar

/-- A character as it stands in an attribute. -/
def escapeQuotedChar (c : Char) : List Char :=
  if c = '"' then "&quot;".toList
  else if c = '\'' then "&#x27;".toList
  else escapeChar c

/-- A text as it stands in an attribute. -/
def escapeQuoted (s : String) : List Char := s.toList.flatMap escapeQuotedChar

end Markup

/-- The classes of an element, with blanks between them. -/
def writeClasses (classes : List String) : List Char :=
  [' '].intercalate (classes.map String.toList)

namespace Box

/-- The blanks in front of an element at a depth. -/
def indent (depth : Nat) : List Char := List.replicate (2 * depth) ' '

/-- The opening tag of a box. -/
def openTag (box : Box) : List Char :=
  "<div id=\"node-".toList ++ Markup.escapeQuoted box.id
    ++ "\" class=\"".toList ++ writeClasses box.classes
    ++ "\" style=\"".toList ++ Declaration.writeAll box.style ++ "\">".toList

/-- A paragraph on a line of its own. -/
def writeParagraph (depth : Nat) (p : Paragraph) : List Char :=
  indent depth ++ "<p style=\"".toList ++ Declaration.writeAll p.style ++ "\">".toList
    ++ Markup.escape p.characters ++ "</p>\n".toList

mutual

/-- A box with what lies in it; a box with nothing in it is closed on the line on which it opens. -/
def write (depth : Nat) : Tree Box → List Char
  | .node box children =>
    match box.paragraph, children with
    | none, [] => indent depth ++ box.openTag ++ "</div>\n".toList
    | paragraph, children =>
      indent depth ++ box.openTag ++ ['\n']
        ++ (paragraph.map (writeParagraph (depth + 1))).getD []
        ++ writeAll (depth + 1) children
        ++ indent depth ++ "</div>\n".toList

/-- Boxes in a row. -/
def writeAll (depth : Nat) : List (Tree Box) → List Char
  | [] => []
  | t :: ts => write depth t ++ writeAll depth ts

end

end Box

/-- The element of a section with its boxes. -/
def Section.write (s : Section) : List Char :=
  "<section class=\"".toList ++ writeClasses s.classes
    ++ "\" id=\"page-".toList ++ Markup.escapeQuoted s.id
    ++ "\" style=\"".toList ++ Declaration.writeAll s.style ++ "\">\n".toList
    ++ Box.writeAll 1 s.boxes ++ "</section>".toList

namespace Page

/-- What stands in front of the title. -/
def opening : List Char :=
  ("<!doctype html>\n<html lang=\"en\">\n<head>\n  <meta charset=\"UTF-8\" />\n  <title>").toList

/-- What stands between the title and the sections. -/
def afterTitle : List Char :=
  ("</title>\n  <link rel=\"stylesheet\" href=\"styles.css\" />\n"
    ++ "  <meta name=\"viewport\" content=\"width=device-width, initial-scale=1\" />\n"
    ++ "</head>\n<body>\n").toList

/-- What stands after the sections. -/
def closing : List Char := "\n</body>\n</html>\n".toList

/-- The document of a page, its sections divided by empty lines. -/
def write (page : Page) : List Char :=
  opening ++ Markup.escape page.title ++ afterTitle
    ++ ['\n', '\n'].intercalate (page.sections.map Section.write) ++ closing

/-- The text of a page. -/
def text (page : Page) : String := String.ofList page.write

end Page

end FrameExport
