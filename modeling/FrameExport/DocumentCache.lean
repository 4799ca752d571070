import FrameExport.Json.Reader
import FrameExport.Session
import FrameExport.Text.SafeName

/-!
# The cache of design files

A `DocumentCache` keeps the file of a key as JSON text in a directory, under a name that is safe for
every key.  An entry that cannot be read, or that is no object, counts as absent, so that a write
that was cut short never stops an export.

`DocumentCache.lookup` is what an entry says; `DocumentCache.fetch` answers from the cache where it
can, and otherwise asks the source and keeps what it gives.
-/

namespace FrameExport

/-- A directory with the files that were fetched. -/
structure DocumentCache where
  directory : Path
deriving DecidableEq, Repr

/-- What the cache says about a key. -/
inductive CacheEntry where
  /-- There is no entry. -/
  | absent
  /-- The entry cannot be read as JSON text. -/
  | unreadable
  /-- The entry is JSON but no object. -/
  | unexpected
  | found (file : Fields)
deriving Repr

/-- The reports about an entry that does not count. -/
def CacheEntry.events : CacheEntry → List Event
  | .unreadable => [.cacheUnreadable]
  | .unexpected => [.cacheUnexpected]
  | _ => []

namespace DocumentCache

/-- The cache in a directory. -/
def ofDirectory (directory : String) : DocumentCache := ⟨.ofString directory⟩

/-- The cache that is used when no directory is named. -/
def standard : DocumentCache := ofDirectory ".cache"

/-- The key that a value stands for: a text stands for itself and a value that counts as absent for
the empty key; no other value has blanks to drop. -/
def keyOf (v : Json) : Except Fault String :=
  match v with
  | .str key => .ok key
  | v => if v.isTruthy then .error (.noAttribute v.kind "strip") else .ok ""

/-- Where the file of a key is kept. -/
def pathOf (cache : DocumentCache) (key : String) : Path :=
  cache.directory.child (Text.safeName key ++ ".json")

/-! ### Reading -/

/-- What the bytes of an entry say. -/
def decode (content : ByteArray) : CacheEntry :=
  match String.fromUTF8? content with
  | none => .unreadable
  | some text =>
    match Json.read text with
    | .ok (.obj file) => .found file
    | .ok _ => .unexpected
    | .error _ => .unreadable

/-- What the cache says about a key.  Whatever keeps an entry from being read makes it unreadable;
only a name that is too long for the file system is an error. -/
def lookup (cache : DocumentCache) (files : FileTree) (key : String) :
    Except FileError CacheEntry :=
  match files.find (cache.pathOf key) with
  | .error .badName => .ok .absent
  | .error e => .error e
  | .ok none => .ok .absent
  | .ok (some _) =>
    match files.read (cache.pathOf key) with
    | .ok content => .ok (decode content)
    | .error _ => .ok .unreadable

/-- The action that gives the kept file of a key, if there is one. -/
def read (cache : DocumentCache) (key : String) : Action (Option Fields) := do
  let entry ← Action.ofExcept ((cache.lookup (← Action.files) key).mapError .file)
  Action.report entry.events
  match entry with
  | .found file => return some file
  | _ => return none

/-! ### Writing -/

/-- The action that keeps the file of a key. -/
def write (cache : DocumentCache) (key : String) (file : Json) : Action Path := do
  Action.makeDirectories cache.directory
  Action.writeFile (cache.pathOf key) file.pretty
  Action.report [.cacheSaved]
  return cache.pathOf key

/-! ### Fetching -/

/-- The action that gives the file of a key: the kept one, or else the one that the source gives,
which is kept then. -/
def fetch (cache : DocumentCache) (source : String → Action Json) (key : String) : Action Json := do
  match ← cache.read key with
  | some file =>
    Action.report [.cacheLoaded]
    return .obj file
  | none =>
    Action.report [.fetching]
    let file ← source key
    let _ ← cache.write key file
    return file

end DocumentCache

end FrameExport
