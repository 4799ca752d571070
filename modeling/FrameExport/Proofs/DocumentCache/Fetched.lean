import FrameExport.Proofs.DocumentCache.Entry

/-!
# What a fetch leaves

A fetch through a cache either finds the file and touches nothing, or it asks the source and keeps
what it gives (`DocumentCache.cases_of_fetch`).  Then the files differ in the entry of the key from
what the source has left, and in nothing else.  If the source fails, nothing is kept
(`DocumentCache.cases_of_fetch_error`).
-/

namespace FrameExport.DocumentCache

variable {cache : DocumentCache} {source : String → Action Json} {key : String} {file : Json}
  {failure : Failure} {s s' : Session}

/-- A write that succeeds changes the entry of the key and no other file. -/
theorem differsOnlyAt_of_write {path : Path}
    (h : (cache.write key file).perform s = (.ok path, s')) :
    FileTree.DiffersOnlyAt s.files s'.files (cache.pathOf key) file.pretty.toUTF8
      ∧ s'.replies = s.replies := by
  rw [write] at h
  obtain ⟨_, made, hmake, h⟩ := Action.perform_bind_eq_ok_iff.mp h
  obtain ⟨_, written, hwrite, h⟩ := Action.perform_bind_eq_ok_iff.mp h
  obtain ⟨-, rfl⟩ := Prod.mk.inj h
  obtain ⟨hmake, hmade⟩ := Action.makeDirectories_of_perform hmake
  obtain ⟨hwrite, hwritten⟩ := Action.write_of_writeFile hwrite
  exact ⟨(FileTree.grows_of_makeDirectories hmake).differsOnlyAt_of_write hwrite,
    hwritten.trans hmade⟩

/-- A write fails only because of the files. -/
theorem failsOnly_write {P : Failure → Prop} (hP : ∀ e, P (.file e)) (cache : DocumentCache)
    (key : String) (file : Json) : Action.FailsOnly P (cache.write key file) :=
  (Action.failsOnly_makeDirectories hP _).bind fun _ =>
    (Action.failsOnly_writeFile hP _ _).bind fun _ =>
      (Action.failsOnly_modify _).bind fun _ => Action.failsOnly_pure _

/-- The session in which the source is asked, after an entry that says nothing. -/
def asking (entry : CacheEntry) (s : Session) : Session :=
  (s.reported entry.events).reported [.fetching]

@[simp] theorem asking_files (entry : CacheEntry) (s : Session) : (asking entry s).files = s.files := rfl

@[simp] theorem asking_replies (entry : CacheEntry) (s : Session) :
    (asking entry s).replies = s.replies := rfl

theorem perform_fetch_of_asking {entry : CacheEntry} (h : cache.lookup s.files key = .ok entry)
    (hentry : entry.kept = none) :
    (cache.fetch source key).perform s
      = (source key >>= fun file => cache.write key file >>= fun _ => pure file).perform
        (asking entry s) := by
  rw [perform_fetch_of_missing source h hentry, renew,
    Action.perform_bind_of_ok (Action.perform_report [.fetching] (s.reported entry.events))]
  rfl

theorem perform_fetch_of_lookup_error {e : FileError} (h : cache.lookup s.files key = .error e) :
    (cache.fetch source key).perform s = (.error (.file e), s) := by
  rw [fetch, Action.perform_bind, perform_read, h]

/-- A file that a fetch gives was kept, or the entry said nothing and the source gave it; then it is
kept from now on. -/
theorem cases_of_fetch (h : (cache.fetch source key).perform s = (.ok file, s')) :
    (∃ fields, file = .obj fields ∧ cache.lookup s.files key = .ok (.found fields)
        ∧ s'.files = s.files)
      ∨ ∃ entry asked, cache.lookup s.files key = .ok entry ∧ entry.kept = none
        ∧ (source key).perform (asking entry s) = (.ok file, asked)
        ∧ FileTree.DiffersOnlyAt asked.files s'.files (cache.pathOf key) file.pretty.toUTF8
        ∧ s'.replies = asked.replies := by
  cases hlookup : cache.lookup s.files key with
  | error e =>
    rw [perform_fetch_of_lookup_error hlookup] at h
    cases h
  | ok entry =>
    cases hkept : entry.kept with
    | some fields =>
      obtain rfl := CacheEntry.kept_eq_some_iff.mp hkept
      rw [perform_fetch_of_found source hlookup] at h
      obtain ⟨hfile, rfl⟩ := Prod.mk.inj h
      exact Or.inl ⟨fields, (Except.ok.inj hfile).symm, rfl, rfl⟩
    | none =>
      rw [perform_fetch_of_asking hlookup hkept] at h
      obtain ⟨given, asked, hsource, h⟩ := Action.perform_bind_eq_ok_iff.mp h
      obtain ⟨path, kept, hwrite, h⟩ := Action.perform_bind_eq_ok_iff.mp h
      obtain ⟨hfile, rfl⟩ := Prod.mk.inj h
      obtain rfl := Except.ok.inj hfile
      exact Or.inr ⟨entry, asked, rfl, hkept, hsource, differsOnlyAt_of_write hwrite⟩

/-- A fetch that fails has met an error of the files, or the source has failed and nothing was
kept. -/
theorem cases_of_fetch_error (h : (cache.fetch source key).perform s = (.error failure, s')) :
    (∃ e, failure = .file e)
      ∨ ∃ entry, (source key).perform (asking entry s) = (.error failure, s') := by
  cases hlookup : cache.lookup s.files key with
  | error e =>
    rw [perform_fetch_of_lookup_error hlookup] at h
    exact Or.inl ⟨e, (Except.error.inj (Prod.mk.inj h).1).symm⟩
  | ok entry =>
    cases hkept : entry.kept with
    | some fields =>
      obtain rfl := CacheEntry.kept_eq_some_iff.mp hkept
      rw [perform_fetch_of_found source hlookup] at h
      cases h
    | none =>
      rw [perform_fetch_of_asking hlookup hkept] at h
      rcases Action.perform_bind_eq_error_iff.mp h with hsource | ⟨file, asked, -, h⟩
      · exact Or.inr ⟨entry, hsource⟩
      · refine Or.inl ?_
        have hfails : Action.FailsOnly (fun failure => ∃ e, failure = .file e)
            (cache.write key file >>= fun _ => pure file) :=
          (failsOnly_write (fun e => ⟨e, rfl⟩) cache key file).bind fun _ => Action.failsOnly_pure _
        exact hfails asked failure (by rw [h])

end FrameExport.DocumentCache
