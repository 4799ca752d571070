import FrameExport.DesignFile
import FrameExport.Page.Writer

/-!
# Rendering a design file

A `Rendering` is the style sheet and the page of the frame of a design file.  `Rendering.ofJson`
makes it: the frame is found, checked and placed, its styles are collected, and the style sheet and
then the page are made from both.  Nothing but the file goes into it.
-/

namespace FrameExport

/-- The style sheet and the page of a design. -/
structure Rendering where
  registry : StyleRegistry
  sheet : Stylesheet
  page : Page
deriving Repr

namespace Rendering

/-- The rendering of a placed frame. -/
def ofRoot (root : Tree Node) : Except Fault Rendering := do
  let registry := StyleRegistry.ofForest [root]
  let sheet ← Stylesheet.ofRegistry registry
  let page ← Page.ofForest Page.defaultTitle registry [root]
  return ⟨registry, sheet, page⟩

/-- The rendering of the file that a value holds. -/
def ofJson (file : Json) : Except DesignError Rendering := do
  (ofRoot (← DesignFile.rootIn file)).mapError .fault

/-- The text of the style sheet. -/
def css (rendering : Rendering) : String := rendering.sheet.text

/-- The text of the page. -/
def html (rendering : Rendering) : String := rendering.page.text

end Rendering

end FrameExport
