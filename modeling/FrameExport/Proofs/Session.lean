import FrameExport.Artifacts
import FrameExport.Proofs.Files.FileTree
import FrameExport.Proofs.Text.Raw

/-!
# How actions are performed

Performing an action gives its answer and the session after it, and `perform_bind` performs one after
the other: what was done before a failure stays done.  `Action.FailsOnly P` says that whatever the
session is, an action fails only with failures that have the property `P`, and `Action.Keeps view` that
it leaves a view of the session as it is; both are kept by everything that actions are put together
from.
-/

namespace FrameExport

/-- The session with reports added to its journal. -/
def Session.reported (s : Session) (events : List Event) : Session :=
  { s with journal := s.journal ++ events }

@[simp] theorem Session.reported_files (s : Session) (events : List Event) :
    (s.reported events).files = s.files := rfl

@[simp] theorem Session.reported_replies (s : Session) (events : List Event) :
    (s.reported events).replies = s.replies := rfl

@[simp] theorem Session.reported_nil (s : Session) : s.reported [] = s := by
  rw [reported, List.append_nil]

namespace Action

variable {α β γ : Type} {P : Failure → Prop} {view : Session → γ}

/-! ### Performing -/

theorem perform_pure (a : α) (s : Session) : (pure a : Action α).perform s = (.ok a, s) := rfl

theorem perform_bind (x : Action α) (f : α → Action β) (s : Session) :
    (x >>= f).perform s = match x.perform s with
      | (.ok a, s') => (f a).perform s'
      | (.error e, s') => (.error e, s') := by
  show ExceptT.bindCont f (x.perform s).1 (x.perform s).2 = _
  cases h : x.perform s with
  | mk answer s' => cases answer <;> rfl

/-- Two actions in a row give an answer if both of them do. -/
theorem perform_bind_eq_ok_iff {x : Action α} {f : α → Action β} {s s' : Session} {b : β} :
    (x >>= f).perform s = (.ok b, s')
      ↔ ∃ a between, x.perform s = (.ok a, between) ∧ (f a).perform between = (.ok b, s') := by
  rw [perform_bind]
  cases x.perform s with
  | mk answer between => cases answer <;> simp [and_assoc]

/-- Two actions in a row fail if the first one does, or the second one after the answer of the
first. -/
theorem perform_bind_eq_error_iff {x : Action α} {f : α → Action β} {s s' : Session}
    {failure : Failure} :
    (x >>= f).perform s = (.error failure, s') ↔ x.perform s = (.error failure, s')
      ∨ ∃ a between, x.perform s = (.ok a, between) ∧ (f a).perform between = (.error failure, s') := by
  rw [perform_bind]
  cases x.perform s with
  | mk answer between => cases answer <;> simp [and_assoc]

theorem perform_fail (failure : Failure) (s : Session) :
    (fail failure : Action α).perform s = (.error failure, s) := rfl

theorem perform_attempt (x : Action α) (s : Session) :
    (attempt x).perform s = (.ok (x.perform s).1, (x.perform s).2) := rfl

/-- The rest of an action goes on in the session that a first action left with an answer. -/
theorem perform_bind_of_ok {x : Action α} {f : α → Action β} {s s' : Session} {a : α}
    (h : x.perform s = (.ok a, s')) : (x >>= f).perform s = (f a).perform s' := by
  rw [perform_bind, h]

theorem perform_ofExcept (answer : Except Failure α) (s : Session) :
    (ofExcept answer).perform s = (answer, s) := rfl

theorem perform_report (events : List Event) (s : Session) :
    (report events).perform s = (.ok (), s.reported events) := rfl

theorem perform_files (s : Session) : files.perform s = (.ok s.files, s) := rfl

theorem perform_makeDirectories (path : Path) (s : Session) :
    (makeDirectories path).perform s = ((s.files.makeDirectories path).2.mapError .file,
      { s with files := (s.files.makeDirectories path).1 }) := rfl

theorem perform_writeBytes (path : Path) (content : ByteArray) (s : Session) :
    (writeBytes path content).perform s = match s.files.write path content with
      | .ok tree => (.ok (), { s with files := tree })
      | .error e => (.error (.file e), s) := by
  rw [writeBytes, perform_bind, perform_files]
  dsimp only
  rw [perform_bind, perform_ofExcept]
  cases s.files.write path content <;> rfl

/-- A text that can be encoded is written in one step: that the file is emptied first leaves no
trace. -/
theorem perform_writeFile_of_some {content : RawText} {bytes : ByteArray}
    (hencode : content.encode? = some bytes) (path : Path) (s : Session) :
    (writeFile path content).perform s = match s.files.write path bytes with
      | .ok tree => (.ok (), { s with files := tree })
      | .error e => (.error (.file e), s) := by
  rw [writeFile, perform_bind, perform_writeBytes, hencode]
  cases hempty : s.files.write path .empty with
  | error e => rw [FileTree.write_error_of_write_error hempty bytes]
  | ok emptied =>
    dsimp only
    rw [perform_writeBytes, FileTree.write_write hempty bytes]
    cases hbytes : s.files.write path bytes with
    | error e =>
      rw [FileTree.write_error_of_write_error hbytes .empty] at hempty
      cases hempty
    | ok tree => rfl

/-- A text that cannot be encoded leaves an empty file. -/
theorem perform_writeFile_of_none {content : RawText} (hencode : content.encode? = none)
    (path : Path) (s : Session) :
    (writeFile path content).perform s = match s.files.write path .empty with
      | .ok tree => (.error .encoding, { s with files := tree })
      | .error e => (.error (.file e), s) := by
  rw [writeFile, perform_bind, perform_writeBytes, hencode]
  cases s.files.write path .empty <;> rfl

theorem perform_writeFile (path : Path) (content : String) (s : Session) :
    (writeFile path content).perform s = match s.files.write path content.toUTF8 with
      | .ok tree => (.ok (), { s with files := tree })
      | .error e => (.error (.file e), s) :=
  perform_writeFile_of_some (RawText.encode?_ofString content) path s

/-- A text is written into a file in one of three ways: the file cannot be opened, it is left empty
because the text cannot be encoded, or it is written. -/
theorem perform_writeFile_cases (path : Path) (content : RawText) (s : Session) :
    (∃ e, (writeFile path content).perform s = (.error (.file e), s)
        ∧ ∀ bytes, s.files.write path bytes = .error e)
      ∨ (∃ tree, content.encode? = none ∧ s.files.write path .empty = .ok tree
        ∧ (writeFile path content).perform s = (.error .encoding, { s with files := tree }))
      ∨ ∃ bytes tree, content.encode? = some bytes ∧ s.files.write path bytes = .ok tree
        ∧ (writeFile path content).perform s = (.ok (), { s with files := tree }) := by
  cases hencode : content.encode? with
  | none =>
    rw [perform_writeFile_of_none hencode]
    cases hwrite : s.files.write path .empty with
    | error e => exact .inl ⟨e, rfl, FileTree.write_error_of_write_error hwrite⟩
    | ok tree => exact .inr (.inl ⟨tree, rfl, rfl, rfl⟩)
  | some bytes =>
    rw [perform_writeFile_of_some hencode]
    cases hwrite : s.files.write path bytes with
    | error e => exact .inl ⟨e, rfl, FileTree.write_error_of_write_error hwrite⟩
    | ok tree => exact .inr (.inr ⟨bytes, tree, rfl, hwrite, rfl⟩)

/-- A file that an action writes is written into the files of the session. -/
theorem write_of_writeFile {path : Path} {content : String} {s s' : Session}
    (h : (writeFile path content).perform s = (.ok (), s')) :
    s.files.write path content.toUTF8 = .ok s'.files ∧ s'.replies = s.replies := by
  rw [perform_writeFile] at h
  split at h
  case h_1 tree htree =>
    obtain ⟨-, rfl⟩ := Prod.mk.inj h
    exact ⟨htree, rfl⟩
  case h_2 => cases h

/-- Directories that an action makes are made in the files of the session. -/
theorem makeDirectories_of_perform {path : Path} {s s' : Session}
    (h : (makeDirectories path).perform s = (.ok (), s')) :
    s.files.makeDirectories path = (s'.files, .ok ()) ∧ s'.replies = s.replies := by
  rw [perform_makeDirectories] at h
  obtain ⟨hanswer, rfl⟩ := Prod.mk.inj h
  exact ⟨Prod.ext rfl (mapError_eq_ok_iff.mp hanswer), rfl⟩

/-! ### Failing -/

/-- In whatever session, the action fails only with failures of a kind. -/
def FailsOnly (P : Failure → Prop) (x : Action α) : Prop :=
  ∀ s failure, (x.perform s).1 = .error failure → P failure

theorem failsOnly_pure (a : α) : FailsOnly P (pure a : Action α) := by
  intro s failure h
  cases h

theorem failsOnly_modify (f : Session → Session) : FailsOnly P (modify f : Action Unit) := by
  intro s failure h
  cases h

theorem failsOnly_get : FailsOnly P (get : Action Session) := by
  intro s failure h
  cases h

theorem failsOnly_ofExcept {answer : Except Failure α}
    (h : ∀ failure, answer = .error failure → P failure) : FailsOnly P (ofExcept answer) :=
  fun _ failure => h failure

theorem FailsOnly.bind {x : Action α} {f : α → Action β} (hx : FailsOnly P x)
    (hf : ∀ a, FailsOnly P (f a)) : FailsOnly P (x >>= f) := by
  intro s failure h
  rw [perform_bind] at h
  cases hperform : x.perform s with
  | mk answer s' =>
    rw [hperform] at h
    cases answer with
    | error e =>
      obtain rfl := Except.error.inj h
      exact hx s e (by rw [hperform])
    | ok a => exact hf a s' failure h

theorem failsOnly_files : FailsOnly P files :=
  failsOnly_get.bind fun _ => failsOnly_pure _

/-- What goes wrong with the files is told as such. -/
theorem failsOnly_ofFiles {answer : Except FileError α} (hP : ∀ e, P (.file e)) :
    FailsOnly P (ofExcept (answer.mapError .file)) := by
  apply failsOnly_ofExcept
  intro failure h
  cases answer with
  | ok a => cases h
  | error e =>
    cases h
    exact hP e

theorem failsOnly_writeBytes (hP : ∀ e, P (.file e)) (path : Path) (content : ByteArray) :
    FailsOnly P (writeBytes path content) :=
  failsOnly_files.bind fun _ => (failsOnly_ofFiles hP).bind fun _ => failsOnly_modify _

/-- A text of characters is written unless something is wrong with the files. -/
theorem failsOnly_writeFile (hP : ∀ e, P (.file e)) (path : Path) (content : String) :
    FailsOnly P (writeFile path content) := by
  refine (failsOnly_writeBytes hP path .empty).bind fun _ => ?_
  rw [RawText.encode?_ofString]
  exact failsOnly_writeBytes hP path content.toUTF8

theorem failsOnly_makeDirectories (hP : ∀ e, P (.file e)) (path : Path) :
    FailsOnly P (makeDirectories path) :=
  failsOnly_files.bind fun _ => (failsOnly_modify _).bind fun _ => failsOnly_ofFiles hP

/-! ### Keeping -/

/-- In whatever session, the action leaves a view of it as it is, whether it fails or not. -/
def Keeps (view : Session → γ) (x : Action α) : Prop := ∀ s, view (x.perform s).2 = view s

theorem keeps_pure (a : α) : Keeps view (pure a : Action α) := fun _ => rfl

theorem keeps_ofExcept (answer : Except Failure α) : Keeps view (ofExcept answer) := fun _ => rfl

/-- What does not depend on the journal is kept by a report. -/
theorem keeps_report (hview : ∀ (s : Session) (events : List Event), view (s.reported events) = view s)
    (events : List Event) : Keeps view (report events) := fun s => hview s events

theorem Keeps.bind {x : Action α} {f : α → Action β} (hx : Keeps view x)
    (hf : ∀ a, Keeps view (f a)) : Keeps view (x >>= f) := by
  intro s
  rw [perform_bind]
  cases hperform : x.perform s with
  | mk answer between =>
    have hbetween : view between = view s := by
      rw [← hx s, hperform]
    cases answer with
    | error e => exact hbetween
    | ok a => exact (hf a between).trans hbetween

/-- What is kept is as before in the session that the action leaves. -/
theorem Keeps.eq {x : Action α} (hx : Keeps view x) {s s' : Session} {answer : Except Failure α}
    (h : x.perform s = (answer, s')) : view s' = view s := by
  rw [← hx s, h]

end Action

/-- Writing the artifacts fails only because of the files. -/
theorem Artifacts.failsOnly_write {P : Failure → Prop} (hP : ∀ e, P (.file e)) (directory : Path)
    (html css : String) : Action.FailsOnly P (Artifacts.write directory html css) :=
  (Action.failsOnly_makeDirectories hP _).bind fun _ =>
    (Action.failsOnly_writeFile hP _ _).bind fun _ =>
      (Action.failsOnly_writeFile hP _ _).bind fun _ =>
        (Action.failsOnly_modify _).bind fun _ => Action.failsOnly_pure _

end FrameExport
