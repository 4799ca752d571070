import FrameExport.Export
import FrameExport.Json.Literal

/-!
# Queued exports

A `Job` is an export that waits in a queue.  It travels as the fields of an object, and so does its
answer.  `Job.ofFields` reads the former, `Export.fields` writes the latter, and `Job.perform` does
the work in between.

Any value may stand as the key of a job.  The service is asked for it as it reads in running text;
the cache takes a text or an absent key only.
-/

namespace FrameExport

namespace Export

/-- What an export left, as the answer of a job tells it. -/
def fields (result : Export) : Fields :=
  [("out_dir", .str result.artifacts.directory.text),
    ("html_path", .str result.artifacts.page.text),
    ("css_path", .str result.artifacts.stylesheet.text),
    ("text_styles", .int result.styles.texts),
    ("fills", .int result.styles.fills),
    ("strokes", .int result.styles.strokes)]

end Export

/-- An export that waits in a queue. -/
structure Job where
  key : Json
  directory : String
  useCache : Bool
deriving Repr

namespace Job

/-- The fields that a job may have. -/
def fieldNames : List String := ["file_key", "out_dir", "use_cache"]

/-- The directory that a value names; an absent or empty one leaves the standard directory. -/
def directoryOf (v : Json) : Except Fault String :=
  if v.isTruthy then
    match v with
    | .str directory => .ok directory
    | v => .error (.notAPath v.kind)
  else .ok Export.standardDirectory

/-- The job that fields describe.  There must be no other field among them than the known ones, and
the key must be among them. -/
def ofFields (fields : Fields) : Except Fault Job :=
  match fields.find? fun f => !fieldNames.contains f.1 with
  | some f => .error (.unknownArgument f.1)
  | none =>
    match fields.lookup "file_key" with
    | none => .error (.missingArgument "file_key")
    | some key => do
      let directory ← directoryOf (fields.get "out_dir")
      return ⟨key, directory, ((fields.lookup "use_cache").getD (.bool true)).isTruthy⟩

/-- The action that gives the design file of a job. -/
def fetch (client : Client) (job : Job) : Action Json := do
  let ask := client.fetch (String.ofList job.key.shown)
  if job.useCache then
    let key ← Action.ofExcept ((DocumentCache.keyOf job.key).mapError .value)
    DocumentCache.standard.fetch (fun _ => ask) key
  else ask

/-- The action that does a job. -/
def perform (client : Client) (job : Job) : Action Export :=
  Export.run (job.fetch client) (.ofString job.directory)

end Job

end FrameExport
