import FrameExport.Session

/-!
# The artifacts of an export

An export leaves a page and a style sheet in a directory.  The style sheet is written first, under
the name by which the page links to it; so a page never stands without its style sheet.
-/

namespace FrameExport

/-- Where the page and the style sheet of an export are. -/
structure Artifacts where
  directory : Path
  page : Path
  stylesheet : Path
deriving DecidableEq, Repr

namespace Artifacts

/-- The name of the page. -/
def pageName : String := "index.html"

/-- The name of the style sheet. -/
def stylesheetName : String := "styles.css"

/-- The artifacts in a directory. -/
def inDirectory (directory : Path) : Artifacts :=
  ⟨directory, directory.child pageName, directory.child stylesheetName⟩

/-- The action that writes the artifacts into a directory. -/
def write (directory : Path) (html css : RawText) : Action Artifacts := do
  let artifacts := inDirectory directory
  Action.makeDirectories directory
  Action.writeFile artifacts.stylesheet css
  Action.writeFile artifacts.page html
  Action.report [.artifactsWritten]
  return artifacts

end Artifacts

end FrameExport
