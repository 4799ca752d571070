import FrameExport.CommandLine.Run
import FrameExport.Proofs.Export.Performed

/-!
# What a run of the program leaves

A run of the program with a command line that is followed is an export (`CommandLine.exportOf`) whose
outcome is told (`CommandLine.told_of_run`): the exit code is zero if it succeeds, and one for a
failure of the service or of the structure of the file.

A run with the exit code one leaves the files alone, except that the cache may keep the file that was
fetched; a run with the exit code zero leaves the page and the style sheet (`CommandLine.run_leaves`).
-/

namespace FrameExport.CommandLine

variable {token : Option String} {arguments : Arguments} {cache : Option DocumentCache}
  {words : List String} {outcome : Outcome} {s s' : Session}

/-- The export that the arguments ask for, with a cache. -/
def exportOf (token : Option String) (arguments : Arguments) (cache : Option DocumentCache) :
    Action Export :=
  Export.run (Export.source (.standard token) cache arguments.key) (.ofString arguments.directory)

/-- How the answer of an export is told, if it is. -/
inductive Tells : Except Failure Export → Outcome → Prop
  | finished (result : Export) : Tells (.ok result) (finished result)
  | service (e : ServiceError) : Tells (.error (.service e)) (failed e.message)
  | structural (e : StructureError) : Tells (.error (.design (.structural e))) (failed e.message)

/-- A run that comes to an outcome has told what its export came to. -/
theorem told_of_run (hparse : Arguments.parse words = .ok arguments)
    (h : (run token words).perform s = (.ok outcome, s')) :
    ∃ cache answer, cacheOf arguments = .ok cache
      ∧ (exportOf token arguments cache).perform s = (answer, s') ∧ Tells answer outcome := by
  rw [run, hparse] at h
  dsimp only at h
  rw [exportAction] at h
  obtain ⟨cache, begun, hstart, h⟩ := Action.perform_bind_eq_ok_iff.mp h
  obtain ⟨hcache, rfl⟩ := Prod.mk.inj hstart
  cases hexport : (exportOf token arguments cache).perform s with
  | mk answer last =>
    have hattempt : (Action.attempt (exportOf token arguments cache)).perform s
        = (.ok answer, last) := by
      rw [Action.perform_attempt, hexport]
    dsimp only at h
    rw [← exportOf.eq_def, Action.perform_bind_of_ok hattempt] at h
    suffices htells : Tells answer outcome ∧ last = s' from
      ⟨cache, answer, mapError_eq_ok_iff.mp hcache, by rw [hexport, htells.2], htells.1⟩
    split at h
    case h_1 result =>
      obtain ⟨houtcome, rfl⟩ := Prod.mk.inj h
      exact ⟨Except.ok.inj houtcome ▸ .finished result, rfl⟩
    case h_2 e =>
      obtain ⟨houtcome, rfl⟩ := Prod.mk.inj h
      exact ⟨Except.ok.inj houtcome ▸ .service e, rfl⟩
    case h_3 e =>
      obtain ⟨houtcome, rfl⟩ := Prod.mk.inj h
      exact ⟨Except.ok.inj houtcome ▸ .structural e, rfl⟩
    case h_4 =>
      rw [Action.perform_fail] at h
      cases h

/-- The end of an export that succeeds is told with the exit code zero. -/
theorem perform_run_of_exportOf {result : Export} (hparse : Arguments.parse words = .ok arguments)
    (hcache : cacheOf arguments = .ok cache)
    (hexport : (exportOf token arguments cache).perform s = (.ok result, s')) :
    (run token words).perform s = (.ok (finished result), s') := by
  have hstart : (Action.ofExcept ((cacheOf arguments).mapError .value)).perform s
      = (.ok cache, s) := by
    rw [hcache]
    rfl
  have hattempt : (Action.attempt (exportOf token arguments cache)).perform s
      = (.ok (.ok result), s') := by
    rw [Action.perform_attempt, hexport]
  rw [run, hparse]
  dsimp only
  rw [exportAction, Action.perform_bind_of_ok hstart]
  dsimp only
  rw [← exportOf.eq_def, Action.perform_bind_of_ok hattempt]
  rfl

/-- A failure of the service leaves the files as they were. -/
theorem files_of_exportOf_service {e : ServiceError}
    (h : (exportOf token arguments cache).perform s = (.error (.service e), s')) :
    s'.files = s.files := by
  rcases Export.cases_of_run_error h with hsource | ⟨file, obtained, e', -, he, -⟩ | ⟨e', he⟩
  · exact Export.files_of_source_service (s := s.begun) hsource
  · cases he
  · cases he

/-- An export that fails on the design was given the file, and no file differs but for what became of
the files on the way to it. -/
theorem exists_obtained_of_exportOf_design {e : DesignError}
    (h : (exportOf token arguments cache).perform s = (.error (.design e), s')) :
    ∃ fields, Rendering.ofJson (.obj fields) = .error e
      ∧ Export.Obtained arguments.key s s' fields cache := by
  rcases Export.cases_of_run_error h with hsource | ⟨file, obtained, e', hsource, he, hjson, hfiles,
    hreplies⟩ | ⟨e', he⟩
  · exact absurd rfl (Export.failsOnly_source _ _ _ s.begun _ (by rw [hsource]) e)
  · obtain rfl := Failure.design.inj he
    obtain ⟨fields, rfl, hobtained⟩ := Export.exists_obtained hsource
    -- beginning and rendering have only been reported
    exact ⟨fields, hjson, hobtained.congr rfl rfl hfiles hreplies⟩
  · cases he

/-- **What a run leaves.**  A run with the exit code one has failed because of the service, and then
nothing has changed, or because of the structure of the file.  No file differs from before unless a
file with a wrong structure was fetched since the cache had none; then the entry of its key has the
JSON text of the file, and nothing else differs but directories that were made.  Without a cache
nothing has changed.  After a run with the exit code zero the page and the style sheet have the texts
of the rendering of the file that the cache had or that was fetched. -/
theorem run_leaves (hparse : Arguments.parse words = .ok arguments)
    (h : (run token words).perform s = (.ok outcome, s')) :
    ∃ cache, cacheOf arguments = .ok cache
      ∧ (outcome.exitCode = 1 →
        ((∃ e, (exportOf token arguments cache).perform s = (.error (.service e), s')
            ∧ outcome = failed e.message ∧ s'.files = s.files)
          ∨ ∃ e, (exportOf token arguments cache).perform s
              = (.error (.design (.structural e)), s') ∧ outcome = failed e.message
            ∧ (s'.files = s.files ∨ ∃ kept entry fields, cache = some kept
              ∧ kept.lookup s.files arguments.key = .ok entry ∧ entry.kept = none
              ∧ Reply.Delivers s.replies s'.replies fields
              ∧ Rendering.ofJson (.obj fields) = .error (.structural e)
              ∧ FileTree.DiffersOnlyAt s.files s'.files (kept.pathOf arguments.key)
                (Json.obj fields).pretty.toUTF8))
          ∧ (arguments.noCache = true → s'.files = s.files))
      ∧ (outcome.exitCode = 0 → ∃ obtained fields rendering,
        (Export.source (.standard token) cache arguments.key).perform s.begun
            = (.ok (.obj fields), obtained)
          ∧ Export.Obtained arguments.key s obtained fields cache
          ∧ Rendering.ofJson (.obj fields) = .ok rendering
          ∧ s'.files.read (Artifacts.inDirectory (.ofString arguments.directory)).page
            = .ok rendering.html.toUTF8
          ∧ s'.files.read (Artifacts.inDirectory (.ofString arguments.directory)).stylesheet
            = .ok rendering.css.toUTF8) := by
  obtain ⟨cache, answer, hcache, hexport, htells⟩ := told_of_run hparse h
  have hnone : arguments.noCache = true → cache = none := by
    intro hno
    rw [cacheOf, if_pos hno] at hcache
    exact (Except.ok.inj hcache).symm
  refine ⟨cache, hcache, ?_⟩
  cases htells with
  | finished result =>
    refine ⟨fun hexit => (by cases hexit), fun _ => ?_⟩
    obtain ⟨file, obtained, rendering, hsource, hjson, hpage, hstylesheet⟩ :=
      Export.exists_of_run_ok hexport
    obtain ⟨fields, rfl, hobtained⟩ := Export.exists_obtained hsource
    exact ⟨obtained, fields, rendering, hsource, hobtained.congr rfl rfl rfl rfl, hjson, hpage,
      hstylesheet⟩
  | service e =>
    have hfiles := files_of_exportOf_service hexport
    exact ⟨fun _ => ⟨Or.inl ⟨e, hexport, rfl, hfiles⟩, fun _ => hfiles⟩, fun hexit => by cases hexit⟩
  | structural e =>
    obtain ⟨fields, hjson, hobtained⟩ := exists_obtained_of_exportOf_design hexport
    refine ⟨fun _ => ⟨Or.inr ⟨e, hexport, rfl, ?_⟩, fun hno => ?_⟩, fun hexit => by cases hexit⟩
    · cases hobtained with
      | direct hdelivers hfiles => exact Or.inl hfiles
      | kept hlookup hfiles => exact Or.inl hfiles
      | renewed hlookup hmissing hdelivers hdiffers =>
        exact Or.inr ⟨_, _, fields, rfl, hlookup, hmissing, hdelivers, hjson, hdiffers⟩
    · obtain rfl := hnone hno
      cases hobtained with
      | direct hdelivers hfiles => exact hfiles

/-- A session in which the service delivers a file without a document. -/
def noDocumentSession : Session := .start .empty [.response 200 "{}"] []

/-- A file without a document is refused, and something has been written then. -/
theorem exists_perform_noDocument : ∃ outcome s',
    (run (some "token") ["key"]).perform noDocumentSession = (.ok outcome, s')
      ∧ outcome.exitCode = 1 ∧ s'.files ≠ noDocumentSession.files := by
  have hcode : ((run (some "token") ["key"]).perform noDocumentSession).1.toOption.map
      Outcome.exitCode = some 1 := by decide +kernel
  have hkept : (((run (some "token") ["key"]).perform noDocumentSession).2.files.read
      (DocumentCache.standard.pathOf "key")).toOption.isSome = true := by decide +kernel
  have hnone : (FileTree.empty.read (DocumentCache.standard.pathOf "key")).toOption.isSome = false := by
    decide +kernel
  cases hrun : (run (some "token") ["key"]).perform noDocumentSession with
  | mk answer s' =>
    rw [hrun] at hcode hkept
    cases answer with
    | error failure => cases hcode
    | ok outcome =>
      refine ⟨outcome, s', rfl, by simpa [Except.toOption] using hcode, fun hsame => ?_⟩
      rw [hsame] at hkept
      exact absurd (hnone.symm.trans hkept) (by decide)

/-- What the only reply delivers is its text. -/
theorem read_of_delivers {body : String} {after : List Reply} {fields : Fields}
    (h : Reply.Delivers [.response 200 body] after fields) : Json.read body = .ok (.obj fields) := by
  obtain ⟨earlier, body', hreplies, hread⟩ := h
  cases earlier with
  | nil =>
    obtain ⟨hreply, -⟩ := List.cons.inj hreplies
    rwa [(Reply.response.inj hreply).2]
  | cons first earlier =>
    obtain ⟨-, hrest⟩ := List.cons.inj hreplies
    simp at hrest

/-- The text of a file with an empty frame. -/
def emptyFrameText : String :=
  "\x7b\"document\":\x7b\"children\":[\x7b\"children\":[\x7b\"type\":\"FRAME\",\"name\":\"Frame\"\x7d]\x7d]\x7d\x7d"

/-- A session in which the service delivers the file. -/
def emptyFrameSession : Session := .start .empty [.response 200 emptyFrameText] []

/-- The program is called for the directory "out" and without a cache. -/
def wordsWithoutCache : List String := ["key", "out", "--no-cache"]

/-- Whether a computation gives a file that renders. -/
def givesRenderable {ε : Type} (x : Except ε Json) : Bool :=
  match x with
  | .ok file => (Rendering.ofJson file).isOk
  | .error _ => false

theorem exists_of_givesRenderable {ε : Type} {x : Except ε Json} (h : givesRenderable x = true) :
    ∃ file rendering, x = .ok file ∧ Rendering.ofJson file = .ok rendering := by
  cases x with
  | error e => cases h
  | ok file =>
    cases hjson : Rendering.ofJson file with
    | error e =>
      rw [givesRenderable, hjson] at h
      cases h
    | ok rendering => exact ⟨file, rendering, rfl, hjson⟩

/-- A file with an empty frame is exported into an empty tree. -/
theorem exists_perform_emptyFrame : ∃ outcome s',
    (run (some "token") wordsWithoutCache).perform emptyFrameSession = (.ok outcome, s')
      ∧ outcome.exitCode = 0 := by
  have hparse : Arguments.parse wordsWithoutCache = .ok ⟨"key", "out", true, .standard⟩ := rfl
  -- whatever the texts of the artifacts are, there is a place for them
  have hplaces : ∀ css html : ByteArray, ∃ made styled written,
      FileTree.empty.makeDirectories (.ofString "out") = (made, .ok ())
        ∧ made.write ((Path.ofString "out").child Artifacts.stylesheetName) css = .ok styled
        ∧ styled.write ((Path.ofString "out").child Artifacts.pageName) html = .ok written :=
    fun css html => ⟨_, _, _, rfl, rfl, rfl⟩
  cases hsource : (Export.source (.standard (some "token")) none "key").perform
      emptyFrameSession.begun with
  | mk answer obtained =>
    obtain ⟨file, rendering, rfl, hjson⟩ : ∃ file rendering, answer = .ok file
        ∧ Rendering.ofJson file = .ok rendering := by
      have hanswer : ((Export.source (.standard (some "token")) none "key").perform
          emptyFrameSession.begun).1 = answer := congrArg Prod.fst hsource
      rw [← hanswer]
      exact exists_of_givesRenderable (by decide +kernel)
    have hfiles : obtained.files = .empty :=
      (Client.keeps_files_fetch (.standard (some "token")) "key").eq hsource
    obtain ⟨result, s', hexport⟩ := Export.exists_perform_run hsource hjson fun t ht => by
      obtain ⟨made, styled, written, hmake, hstyled, hwritten⟩ :=
        hplaces rendering.css.toUTF8 rendering.html.toUTF8
      rw [← hfiles, ← ht] at hmake
      exact Artifacts.exists_perform_write hmake hstyled hwritten
    exact ⟨finished result, s', perform_run_of_exportOf hparse rfl hexport, rfl⟩

/-- A file without a document is fetched, and refused for its structure; what the run leaves is the
entry of the cache with the text of the file.  A file with an empty frame is exported, and what the
run leaves are the two texts of its rendering. -/
theorem run_leaves_refused_and_exported :
    (∃ outcome s', (run (some "token") ["key"]).perform noDocumentSession = (.ok outcome, s')
      ∧ outcome.exitCode = 1
      ∧ FileTree.DiffersOnlyAt .empty s'.files (DocumentCache.standard.pathOf "key") "{}".toUTF8)
    ∧ ∃ outcome s' fields rendering,
      (run (some "token") wordsWithoutCache).perform emptyFrameSession = (.ok outcome, s')
        ∧ outcome.exitCode = 0
        ∧ Json.read emptyFrameText = .ok (.obj fields)
        ∧ Rendering.ofJson (.obj fields) = .ok rendering
        ∧ s'.files.read (.ofString "out/index.html") = .ok rendering.html.toUTF8
        ∧ s'.files.read (.ofString "out/styles.css") = .ok rendering.css.toUTF8 := by
  constructor
  · obtain ⟨outcome, s', hrun, hexit, hchanged⟩ := exists_perform_noDocument
    have hparse : Arguments.parse ["key"] = .ok ⟨"key", "dist", false, .standard⟩ := rfl
    obtain ⟨cache, hcache, hleaves, -⟩ := run_leaves hparse hrun
    obtain rfl := Except.ok.inj hcache
    rcases (hleaves hexit).1 with ⟨e, -, -, hsame⟩ | ⟨e, -, -, hsame | ⟨kept, entry, fields,
      hstandard, -, -, hdelivers, -, hdiffers⟩⟩
    · exact absurd hsame hchanged
    · exact absurd hsame hchanged
    · obtain rfl := Option.some.inj hstandard
      have hread : Json.read "{}" = .ok (.obj []) := rfl
      rw [read_of_delivers hdelivers] at hread
      obtain rfl := Json.obj.inj (Except.ok.inj hread)
      exact ⟨outcome, s', hrun, hexit, hdiffers⟩
  · obtain ⟨outcome, s', hrun, hexit⟩ := exists_perform_emptyFrame
    have hparse : Arguments.parse wordsWithoutCache = .ok ⟨"key", "out", true, .standard⟩ := rfl
    obtain ⟨cache, hcache, -, hleaves⟩ := run_leaves hparse hrun
    obtain rfl := Except.ok.inj hcache
    obtain ⟨obtained, fields, rendering, -, hobtained, hjson, hpage, hstylesheet⟩ := hleaves hexit
    cases hobtained with
    | direct hdelivers hsame =>
      exact ⟨outcome, s', fields, rendering, hrun, hexit, read_of_delivers hdelivers, hjson, hpage,
        hstylesheet⟩

end FrameExport.CommandLine
