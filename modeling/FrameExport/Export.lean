import FrameExport.Artifacts
import FrameExport.DocumentCache
import FrameExport.Service.Client

/-!
# Exports

An export fetches a design file, renders it and writes the artifacts.  Nothing is written
before the rendering is complete, so an export that fails earlier leaves the directory as it is.
-/

namespace FrameExport

namespace Rendering

/-- What is reported while a file is rendered, up to the point where that fails. -/
def events (file : Json) : List Event :=
  .normalizing :: match DesignFile.rootIn file with
    | .error _ => []
    | .ok root =>
      [.frameBuilt, .stylesCollected, .generatingStylesheet]
        ++ match Stylesheet.ofRegistry (StyleRegistry.ofForest [root]) with
          | .error _ => []
          | .ok _ => [.generatingPage]

/-- The action that renders a file. -/
def run (file : Json) : Action Rendering := do
  Action.report (events file)
  Action.ofExcept ((ofJson file).mapError .design)

end Rendering

/-- What an export leaves. -/
structure Export where
  artifacts : Artifacts
  styles : StyleSummary
deriving DecidableEq, Repr

namespace Export

/-- The directory for the artifacts when none is named. -/
def standardDirectory : String := "dist"

/-- Where design files come from: the service, behind a cache if there is one. -/
def source (client : Client) (cache : Option DocumentCache) (key : String) : Action Json :=
  match cache with
  | some cache => cache.fetch client.fetch key
  | none => client.fetch key

/-- The action that exports the file that another action gives. -/
def run (fetch : Action Json) (directory : Path) : Action Export := do
  Action.report [.exportStarted]
  let rendering ← Rendering.run (← fetch)
  let artifacts ← Artifacts.write directory rendering.html rendering.css
  Action.report [.exportDone]
  return ⟨artifacts, rendering.registry.summary⟩

end Export

end FrameExport
