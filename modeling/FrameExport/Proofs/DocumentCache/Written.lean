import FrameExport.Proofs.DocumentCache.Entry

/-!
# Reading what was written

After a write, a read of the same key gives the file exactly as it was, whatever values it has
(`read_after_write`).  Entries with other names, and all files besides, are left alone; what is made
is no more than the missing directories.

A directory whose path leads up is special, since making it can open the way to what is there already
and can put a directory where an entry should be.  The names of entries are as long as the keys, and
file systems have limits (`write_fails_or_disturbs`).
-/

namespace FrameExport.DocumentCache

variable {cache : DocumentCache} {made : FileTree} {key other : String} {fields : Fields}
  {s s' : Session}

/-- In a closed tree, a directory whose path leads down only can be made without touching what the
names of entries stand for. -/
theorem lookup_of_down (hclosed : s.files.IsClosed) (hdown : ".." ∉ cache.directory.names)
    (hmakes : s.files.makeDirectories cache.directory = (made, .ok ()))
    (hname : (entryName other).utf8ByteSize ≤ FileTree.maxNameBytes) :
    cache.lookup made other = cache.lookup s.files other :=
  lookup_of_sameAt (hclosed.sameAt_child hdown hmakes (entryName_ne_up other)
    (nul_notMem_entryName other) hname)

/-- If the path of the directory leads down only, it is enough that no directory has the path of the
entry beforehand. -/
theorem canKeep_of_down (hclosed : s.files.IsClosed) (hdown : ".." ∉ cache.directory.names)
    (hmakes : s.files.makeDirectories cache.directory = (made, .ok ()))
    (hname : (entryName key).utf8ByteSize ≤ FileTree.maxNameBytes)
    (hfree : ∃ found, s.files.find (cache.pathOf key) = .ok found ∧ found ≠ some .directory) :
    cache.CanKeep s.files made key := by
  obtain ⟨found, hfind, hne⟩ := hfree
  have hsame := hclosed.sameAt_child hdown hmakes (entryName_ne_up key) (nul_notMem_entryName key)
    hname
  exact ⟨hmakes, found, hsame.find_eq.trans hfind, hne⟩

theorem read_answer_congr (h : cache.lookup s'.files key = cache.lookup s.files key) :
    ((cache.read key).perform s').1 = ((cache.read key).perform s).1 := by
  rw [perform_read, perform_read, h]
  cases cache.lookup s.files key <;> rfl

/-! ### The round trip -/

/-- A write succeeds where the file can be kept, and then a read of the key gives the file.  A read of
a key with another safe name gives what it gives once the directory is there; that is what it gave
before if nothing had to be made, or if the path of the directory leads down only and the file system
takes the name of the entry.  No entry of the tree changes but that of the key; directories are made
where nothing was. -/
theorem read_after_write (hkeep : cache.CanKeep s.files made key)
    (hreadable : (Json.obj fields).isReadable = true) :
    ∃ s', (cache.write key (.obj fields)).perform s = (.ok (cache.pathOf key), s') ∧
      ((cache.read key).perform s').1 = .ok (some fields) ∧
      (∀ other, Text.safeName other ≠ Text.safeName key →
        ((cache.read other).perform s').1
            = ((cache.read other).perform { s with files := made }).1 ∧
          (made = s.files ∨ (s.files.IsClosed ∧ ".." ∉ cache.directory.names ∧
              (entryName other).utf8ByteSize ≤ FileTree.maxNameBytes) →
            ((cache.read other).perform s').1 = ((cache.read other).perform s).1)) ∧
      ∃ location, made.locate (cache.pathOf key) = .ok location ∧
        ∀ place ≠ location, s'.files.get? place = s.files.get? place ∨
          (s.files.get? place = none ∧ s'.files.get? place = some .directory) := by
  refine ⟨_, hkeep.perform_write (.obj fields), ?_, ?_, ?_⟩
  · rw [perform_read, Session.reported_files, hkeep.lookup_keep_self hreadable]
    rfl
  · intro other hother
    have hkept := hkeep.lookup_keep_of_ne (.obj fields) hother
    refine ⟨read_answer_congr hkept, fun h => read_answer_congr (hkept.trans ?_)⟩
    rcases h with hmade | ⟨hclosed, hdown, hname⟩
    · rw [hmade]
    · exact lookup_of_down hclosed hdown hkeep.makes hname
  · obtain ⟨location, hleads, -⟩ := hkeep.exists_leads
    refine ⟨_, locate_pathOf_of_fits hleads hkeep.fits, fun place hplace => ?_⟩
    rw [Session.reported_files, hkeep.get?_keep hleads, if_neg hplace]
    exact hkeep.grows.get?_eq place

/-- The round trip of a text with an accent and of a number that is none, in an empty tree. -/
theorem read_after_write_accent :
    standard.CanKeep FileTree.empty (FileTree.empty.makeDirectories standard.directory).1 "a/1" ∧
    (Json.obj [("é", .double .nan)]).isReadable = true ∧
    ∃ s', (standard.write "a/1" (.obj [("é", .double .nan)])).perform (.start .empty [] [])
        = (.ok (standard.pathOf "a/1"), s') ∧
      ((standard.read "a/1").perform s').1 = .ok (some [("é", .double .nan)]) ∧
      ((standard.read "b").perform s').1 = ((standard.read "b").perform (.start .empty [] [])).1 := by
  have hkeep : standard.CanKeep FileTree.empty
      (FileTree.empty.makeDirectories standard.directory).1 "a/1" :=
    canKeep_of_down (s := .start .empty [] []) FileTree.isClosed_empty (by decide) rfl
      (by decide) ⟨none, rfl, by simp⟩
  have hreadable : (Json.obj [("é", .double .nan)]).isReadable = true := by decide
  obtain ⟨s', hwrite, hread, hothers, -⟩ :=
    read_after_write (s := .start .empty [] []) hkeep hreadable
  have hother := (hothers "b" (by decide)).2
    (Or.inr ⟨FileTree.isClosed_empty, by decide, by decide⟩)
  exact ⟨hkeep, hreadable, s', hwrite, hread, hother⟩

/-- The tree with one file in the working directory. -/
def oneFile : FileTree := FileTree.empty.set ["work", "b.json"] (.file "{}".toUTF8)

/-- Where the directory can be made and no directory has the name of the entry, a write can fail all
the same: because making the directory puts one there, or because the name is too long.  And where it
succeeds, making the directory can change what a read of another key gives. -/
theorem write_fails_or_disturbs :
    ((FileTree.empty.makeDirectories (ofDirectory "x.json/..").directory).2 = .ok () ∧
      FileTree.empty.find ((ofDirectory "x.json/..").pathOf "x") = .ok none ∧
      (((ofDirectory "x.json/..").write "x" (.obj [])).perform (.start .empty [] [])).1
        = .error (.file .isADirectory)) ∧
    ((FileTree.empty.makeDirectories standard.directory).2 = .ok () ∧
      FileTree.empty.find (standard.pathOf (letters 300)) = .ok none ∧
      ((standard.write (letters 300) (.obj [])).perform (.start .empty [] [])).1
        = .error (.file .nameTooLong)) ∧
    (Text.safeName "b" ≠ Text.safeName "a" ∧
      ∃ s', ((ofDirectory "new/..").write "a" (.obj [])).perform (.start oneFile [] [])
          = (.ok ((ofDirectory "new/..").pathOf "a"), s') ∧
      (((ofDirectory "new/..").read "b").perform (.start oneFile [] [])).1 = .ok none ∧
      (((ofDirectory "new/..").read "b").perform s').1 = .ok (some [])) ∧
    Text.safeName (letters 300) ≠ Text.safeName "a" ∧
      ∃ s', (standard.write "a" (.obj [])).perform (.start .empty [] [])
          = (.ok (standard.pathOf "a"), s') ∧
      ((standard.read (letters 300)).perform (.start .empty [] [])).1 = .ok none ∧
      ((standard.read (letters 300)).perform s').1 = .error (.file .nameTooLong) := by
  have hname : Text.safeName (letters 300) ≠ Text.safeName "a" := by
    intro h
    have hlong := long_letters
    rw [entryName, h] at hlong
    exact absurd hlong (by decide)
  refine ⟨⟨rfl, rfl, rfl⟩, ⟨rfl, find_letters, ?_⟩, ⟨by decide, _, rfl, rfl, rfl⟩, hname, _, rfl, ?_,
    ?_⟩
  · rw [perform_write_of_long rfl long_letters]
  · have hlookup : standard.lookup (Session.start .empty [] []).files (letters 300) = .ok .absent :=
      lookup_of_find_eq_none find_letters
    rw [perform_read, hlookup]
    rfl
  · rw [perform_read_of_long (.named rfl rfl) long_letters]

end FrameExport.DocumentCache
