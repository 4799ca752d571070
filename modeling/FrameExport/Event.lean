/-!
# The journal

Every stage of an export reports what it does.  An `Event` is one report; it has a level, the area
of the program that it comes from, and a message.
-/

namespace FrameExport

/-- How much a report matters. -/
inductive EventLevel where
  | info
  | warning
  | error
deriving DecidableEq, Repr

/-- The name of a level. -/
def EventLevel.name : EventLevel → String
  | .info => "INFO"
  | .warning => "WARNING"
  | .error => "ERROR"

/-- A report. -/
inductive Event where
  | exportStarted
  | normalizing
  | frameBuilt
  | stylesCollected
  | generatingStylesheet
  | generatingPage
  | artifactsWritten
  | exportDone
  | cacheUnreadable
  | cacheUnexpected
  | cacheSaved
  | cacheLoaded
  | fetching
  | statusRetry
  | networkRetry
  | networkFailed
  | responded
deriving DecidableEq, Repr

namespace Event

/-- How much a report matters. -/
def level : Event → EventLevel
  | .cacheUnreadable | .cacheUnexpected => .warning
  | .networkFailed => .error
  | _ => .info

/-- The area of the program that a report comes from. -/
def area : Event → String
  | .frameBuilt => "figma-ir"
  | .stylesCollected => "style-registry"
  | .cacheUnreadable | .cacheUnexpected | .cacheSaved | .cacheLoaded | .fetching => "cache"
  | .statusRetry | .networkRetry | .networkFailed | .responded => "figma-proxy"
  | _ => "codegen"

/-- What a report says. -/
def message : Event → String
  | .exportStarted => "Export start"
  | .normalizing => "Normalizing document..."
  | .frameBuilt => "IR built"
  | .stylesCollected => "Styles collected"
  | .generatingStylesheet => "Generating CSS..."
  | .generatingPage => "Generating HTML..."
  | .artifactsWritten => "Artifacts written"
  | .exportDone => "Export done"
  | .cacheUnreadable => "Cache entry unreadable, ignoring"
  | .cacheUnexpected => "Cache entry has unexpected type, ignoring"
  | .cacheSaved => "Saved cache"
  | .cacheLoaded => "Loaded Figma file from cache"
  | .fetching => "Fetching Figma file from API"
  | .statusRetry => "Figma API retry"
  | .networkRetry => "Figma API network error, retrying"
  | .networkFailed => "Files API network error"
  | .responded => "Files API response"

end Event

end FrameExport
