import FrameExport.Proofs.Artifacts
import FrameExport.Proofs.DocumentCache.Fetched
import FrameExport.Proofs.Rendering.Failure
import FrameExport.Proofs.Service.Delivered

/-!
# How an export is performed

The file of an export was kept, or it is what the service delivers, and then nothing but the entry of
its key has changed (`Export.Obtained`).  No failure on the way to it is about a design
(`Export.failsOnly_source`), and a failure of the service leaves the files as they were.

An export succeeds if the file comes and renders and the artifacts can be written
(`Export.exists_perform_run`), and one that succeeds has rendered the file and written the two texts
(`Export.exists_of_run_ok`).  One that fails on the design has written nothing after the file was
obtained (`Export.cases_of_run_error`), since rendering comes before the artifacts.
-/

namespace FrameExport.Export

variable {client : Client} {cache : Option DocumentCache} {key : String} {directory : Path}
  {fetch : Action Json} {file : Json} {fields : Fields} {s s' : Session}

/-! ### The file -/

/-- Where the file of a key comes from when there may be a cache, and what becomes of the files. -/
inductive Obtained (key : String) (s s' : Session) (fields : Fields) : Option DocumentCache → Prop
  /-- There is no cache, and the service delivers the file. -/
  | direct (hdelivers : Reply.Delivers s.replies s'.replies fields) (hfiles : s'.files = s.files) :
    Obtained key s s' fields none
  /-- The cache has the file. -/
  | kept {cache : DocumentCache} (hlookup : cache.lookup s.files key = .ok (.found fields))
    (hfiles : s'.files = s.files) : Obtained key s s' fields (some cache)
  /-- The cache has no file, and the one that the service delivers is kept. -/
  | renewed {cache : DocumentCache} {entry : CacheEntry}
    (hlookup : cache.lookup s.files key = .ok entry) (hmissing : entry.kept = none)
    (hdelivers : Reply.Delivers s.replies s'.replies fields)
    (hfiles : FileTree.DiffersOnlyAt s.files s'.files (cache.pathOf key)
      (Json.obj fields).pretty.toUTF8) :
    Obtained key s s' fields (some cache)

/-- Only the files and the replies have a part in where a file comes from. -/
theorem Obtained.congr {t t' : Session} (h : Obtained key s s' fields cache)
    (hfiles : t.files = s.files) (hreplies : t.replies = s.replies)
    (hfiles' : t'.files = s'.files) (hreplies' : t'.replies = s'.replies) :
    Obtained key t t' fields cache := by
  cases h with
  | direct hdelivers hsame =>
    exact .direct (by rwa [hreplies, hreplies']) (by rw [hfiles', hsame, hfiles])
  | kept hlookup hsame => exact .kept (by rwa [hfiles]) (by rw [hfiles', hsame, hfiles])
  | renewed hlookup hmissing hdelivers hdiffers =>
    exact .renewed (by rwa [hfiles]) hmissing (by rwa [hreplies, hreplies'])
      (by rwa [hfiles, hfiles'])

/-- A file that a source gives is an object that was obtained. -/
theorem exists_obtained (h : (source client cache key).perform s = (.ok file, s')) :
    ∃ fields, file = .obj fields ∧ Obtained key s s' fields cache := by
  cases cache with
  | none =>
    obtain ⟨fields, rfl, hdelivers⟩ := Client.delivers_of_fetch h
    exact ⟨fields, rfl, .direct hdelivers ((client.keeps_files_fetch key).eq h)⟩
  | some cache =>
    rcases DocumentCache.cases_of_fetch h with ⟨fields, rfl, hlookup, hfiles⟩
      | ⟨entry, asked, hlookup, hmissing, hfetch, hdiffers, hreplies⟩
    · exact ⟨fields, rfl, .kept hlookup hfiles⟩
    · obtain ⟨fields, rfl, hdelivers⟩ := Client.delivers_of_fetch hfetch
      have hfiles := (client.keeps_files_fetch key).eq hfetch
      rw [hfiles, DocumentCache.asking_files] at hdiffers
      rw [← hreplies, DocumentCache.asking_replies] at hdelivers
      exact ⟨fields, rfl, .renewed hlookup hmissing hdelivers hdiffers⟩

/-- A failure of the service leaves the files as they were. -/
theorem files_of_source_service {e : ServiceError}
    (h : (source client cache key).perform s = (.error (.service e), s')) : s'.files = s.files := by
  cases cache with
  | none => exact (client.keeps_files_fetch key).eq h
  | some cache =>
    rcases DocumentCache.cases_of_fetch_error h with ⟨e', he'⟩ | ⟨entry, hfetch⟩
    · cases he'
    · rw [(client.keeps_files_fetch key).eq hfetch, DocumentCache.asking_files]

/-- No failure of a source is about a design. -/
theorem failsOnly_source (client : Client) (cache : Option DocumentCache) (key : String) :
    Action.FailsOnly (fun failure => ∀ e, failure ≠ .design e) (source client cache key) := by
  have hclient : Action.FailsOnly (fun failure => ∀ e, failure ≠ .design e) (client.fetch key) :=
    Client.failsOnly_fetch (fun e e' => by simp) (fun fault e' => by simp) client key
  cases cache with
  | none => exact hclient
  | some cache =>
    intro s failure h
    rcases DocumentCache.cases_of_fetch_error (Prod.ext h rfl) with ⟨e, rfl⟩ | ⟨entry, hfetch⟩
    · simp
    · exact hclient _ failure (by rw [hfetch])

/-! ### The export -/

/-- An export succeeds if its file comes and renders, and the artifacts can be written where its
files lie. -/
theorem exists_perform_run {obtained : Session} {rendering : Rendering} {artifacts : Artifacts}
    (hfetch : fetch.perform s.begun = (.ok file, obtained))
    (hjson : Rendering.ofJson file = .ok rendering)
    (hwrite : ∀ t : Session, t.files = obtained.files →
      ∃ t', (Artifacts.write directory rendering.html rendering.css).perform t = (.ok artifacts, t')) :
    ∃ result s', (run fetch directory).perform s = (.ok result, s') := by
  obtain ⟨written, hwritten⟩ := hwrite (obtained.reported (Rendering.events file)) rfl
  have hrender : (Rendering.run file).perform obtained
      = (.ok rendering, obtained.reported (Rendering.events file)) := by
    rw [Rendering.perform_run, hjson]
    rfl
  have hstart : (Action.report [.exportStarted]).perform s = (.ok (), s.begun) := rfl
  rw [run, Action.perform_bind_of_ok hstart, Action.perform_bind_of_ok hfetch,
    Action.perform_bind_of_ok hrender, Action.perform_bind_of_ok hwritten]
  exact ⟨_, _, rfl⟩

/-- An export that succeeds has rendered the file that it was given, and the artifacts are read with
the texts of the rendering. -/
theorem exists_of_run_ok {result : Export}
    (h : (run fetch directory).perform s = (.ok result, s')) :
    ∃ file obtained rendering, fetch.perform s.begun = (.ok file, obtained)
      ∧ Rendering.ofJson file = .ok rendering
      ∧ s'.files.read (Artifacts.inDirectory directory).page = .ok rendering.html.toUTF8
      ∧ s'.files.read (Artifacts.inDirectory directory).stylesheet = .ok rendering.css.toUTF8 := by
  rw [run, Action.perform_bind_of_ok (Action.perform_report [.exportStarted] s)] at h
  obtain ⟨file, obtained, hfetch, h⟩ := Action.perform_bind_eq_ok_iff.mp h
  obtain ⟨rendering, rendered, hrun, h⟩ := Action.perform_bind_eq_ok_iff.mp h
  obtain ⟨artifacts, written, hwrite, hdone⟩ := Action.perform_bind_eq_ok_iff.mp h
  rw [Rendering.perform_run] at hrun
  obtain ⟨hjson, rfl⟩ := Prod.mk.inj hrun
  obtain ⟨hpage, hstylesheet⟩ := Artifacts.read_of_write hwrite
  obtain ⟨-, rfl⟩ := Prod.mk.inj hdone
  exact ⟨file, obtained, rendering, hfetch, mapError_eq_ok_iff.mp hjson, hpage, hstylesheet⟩

/-- An export that fails has failed at the file, or on rendering it, or at writing the artifacts; it
writes nothing when rendering fails. -/
theorem cases_of_run_error {failure : Failure}
    (h : (run fetch directory).perform s = (.error failure, s')) :
    fetch.perform s.begun = (.error failure, s')
      ∨ (∃ file obtained e, fetch.perform s.begun = (.ok file, obtained) ∧ failure = .design e
        ∧ Rendering.ofJson file = .error e ∧ s'.files = obtained.files
        ∧ s'.replies = obtained.replies)
      ∨ ∃ e, failure = .file e := by
  rw [run, Action.perform_bind_of_ok (Action.perform_report [.exportStarted] s)] at h
  rcases Action.perform_bind_eq_error_iff.mp h with hfetch | ⟨file, obtained, hfetch, h⟩
  · exact Or.inl hfetch
  · rcases Action.perform_bind_eq_error_iff.mp h with hrun | ⟨rendering, rendered, -, h⟩
    · rw [Rendering.perform_run] at hrun
      obtain ⟨hjson, rfl⟩ := Prod.mk.inj hrun
      obtain ⟨e, he, rfl⟩ := mapError_eq_error_iff.mp hjson
      exact Or.inr (Or.inl ⟨file, obtained, e, hfetch, rfl, he, rfl, rfl⟩)
    · have hfinish := failsOnly_finish (P := fun failure => ∃ e, failure = .file e)
        (fun e => ⟨e, rfl⟩) directory rendering
      exact Or.inr (Or.inr (hfinish rendered failure (by rw [h])))

end FrameExport.Export
