import FrameExport.DocumentCache
import FrameExport.Proofs.Files.Directories
import FrameExport.Proofs.Json.Indented
import FrameExport.Proofs.Session
import FrameExport.Proofs.Text.Bytes
import FrameExport.Proofs.Text.SafeName

/-!
# The entries of a cache

A cache can keep the file of a key (`DocumentCache.CanKeep`) if its directory can be made, the file
system takes the path of the entry, and no directory has that path.  Then `DocumentCache.keep` is the
tree with the entry: a lookup of the key finds the file (`CanKeep.lookup_keep_self`), and a lookup of
a key with another safe name is as it was (`CanKeep.lookup_keep_of_ne`).

What `read` and `fetch` do follows from what the lookup says (`perform_read`,
`perform_fetch_of_found`, `perform_fetch_of_missing`), and a write does what making the directory and
writing the file do (`perform_write`).
-/

namespace FrameExport

/-- The file of an entry that has one. -/
def CacheEntry.kept : CacheEntry → Option Fields
  | .found file => some file
  | _ => none

theorem CacheEntry.kept_eq_some_iff {entry : CacheEntry} {fields : Fields} :
    entry.kept = some fields ↔ entry = .found fields := by
  cases entry <;> simp [kept]

namespace DocumentCache

variable {cache : DocumentCache} {files made : FileTree} {location : Location} {key other : String}
  {file : Json} {fields : Fields} {s : Session} {entry : CacheEntry}

/-! ### The names of entries -/

/-- The file name of the entry of a key. -/
def entryName (key : String) : String := Text.safeName key ++ ".json"

theorem pathOf_eq (cache : DocumentCache) (key : String) :
    cache.pathOf key = cache.directory.child (entryName key) := rfl

theorem notMem_entryName {c : Char} (hsafe : Text.isSafeChar c = false) (hending : c ∉ ".json".toList)
    (key : String) : c ∉ (entryName key).toList := by
  rw [entryName, String.toList_append, List.mem_append, not_or]
  refine ⟨fun hmem => ?_, hending⟩
  rw [(Text.isSafeName_safeName key).isSafeChar _ hmem] at hsafe
  cases hsafe

theorem nul_notMem_entryName (key : String) : Char.ofNat 0 ∉ (entryName key).toList :=
  notMem_entryName (by decide) (by decide) key

/-- The ending of an entry tells its name from those that lead nowhere or up. -/
theorem entryName_ne {name : String} (hj : 'j' ∉ name.toList) (key : String) :
    entryName key ≠ name := by
  rintro rfl
  rw [entryName, String.toList_append, List.mem_append, not_or] at hj
  exact hj.2 (by decide)

theorem entryName_ne_up (key : String) : entryName key ≠ ".." := entryName_ne (by decide) key

theorem entryName_eq_iff :
    entryName key = entryName other ↔ Text.safeName key = Text.safeName other := by
  rw [entryName, entryName, ← String.toList_inj, ← String.toList_inj, String.toList_append,
    String.toList_append]
  exact List.append_left_inj _

/-! ### Keys that can be kept -/

/-- The file system takes the name and the path of the entry of a key. -/
structure Fits (cache : DocumentCache) (key : String) : Prop where
  name_le : (entryName key).utf8ByteSize ≤ FileTree.maxNameBytes
  path_lt : (cache.pathOf key).text.utf8ByteSize < FileTree.pathBytesLimit

/-- The directory of the cache can be made, which gives a certain tree, and in that tree the path of
the entry is one that the file system takes, and not that of a directory. -/
structure CanKeep (cache : DocumentCache) (files made : FileTree) (key : String) : Prop where
  makes : files.makeDirectories cache.directory = (made, .ok ())
  free : ∃ found, made.find (cache.pathOf key) = .ok found ∧ found ≠ some .directory

/-- The tree with the entry of a key, if that can be written. -/
def keep (cache : DocumentCache) (tree : FileTree) (key : String) (file : Json) : FileTree :=
  match tree.write (cache.pathOf key) file.pretty.toUTF8 with
  | .ok tree' => tree'
  | .error _ => tree

theorem locate_pathOf (h : files.Leads cache.directory location) (key : String) :
    files.locate (cache.pathOf key)
      = if FileTree.pathBytesLimit ≤ (cache.pathOf key).text.utf8ByteSize ∨
          FileTree.maxNameBytes < (entryName key).utf8ByteSize
        then .error .nameTooLong else .ok (location ++ [entryName key]) :=
  h.locate_child (entryName_ne_up key) (nul_notMem_entryName key)

theorem locate_pathOf_of_fits (h : files.Leads cache.directory location) (hfits : cache.Fits key) :
    files.locate (cache.pathOf key) = .ok (location ++ [entryName key]) := by
  have hshort := not_or.mpr ⟨Nat.not_le.mpr hfits.path_lt, Nat.not_lt.mpr hfits.name_le⟩
  rw [locate_pathOf h, if_neg hshort]

namespace CanKeep

theorem fits (h : cache.CanKeep files made key) : cache.Fits key := by
  obtain ⟨location, hleads⟩ := FileTree.exists_leads_of_makeDirectories h.makes
  obtain ⟨found, hfind, -⟩ := h.free
  have hshort : ¬ (FileTree.pathBytesLimit ≤ (cache.pathOf key).text.utf8ByteSize ∨
      FileTree.maxNameBytes < (entryName key).utf8ByteSize) := by
    intro hlong
    rw [FileTree.find, locate_pathOf hleads, if_pos hlong] at hfind
    cases hfind
  rw [not_or, Nat.not_le, Nat.not_lt] at hshort
  exact ⟨hshort.2, hshort.1⟩

theorem exists_leads (h : cache.CanKeep files made key) :
    ∃ location, made.Leads cache.directory location ∧
      made.get? (location ++ [entryName key]) ≠ some .directory := by
  obtain ⟨location, hleads⟩ := FileTree.exists_leads_of_makeDirectories h.makes
  obtain ⟨found, hfind, hne⟩ := h.free
  rw [FileTree.find_of_locate (locate_pathOf_of_fits hleads h.fits)] at hfind
  exact ⟨location, hleads, by rwa [Except.ok.inj hfind]⟩

theorem grows (h : cache.CanKeep files made key) : FileTree.Grows files made :=
  FileTree.grows_of_makeDirectories h.makes

theorem write_eq (h : cache.CanKeep files made key) (file : Json) :
    made.write (cache.pathOf key) file.pretty.toUTF8 = .ok (cache.keep made key file) := by
  obtain ⟨location, hleads, hfree⟩ := h.exists_leads
  have hwrite : made.write (cache.pathOf key) file.pretty.toUTF8
      = .ok (made.set (location ++ [entryName key]) (.file file.pretty.toUTF8)) :=
    FileTree.write_eq_ok_iff.mpr ⟨_, locate_pathOf_of_fits hleads h.fits, hfree, rfl⟩
  rw [keep, hwrite]

/-- Keeping a file sets one entry in the directory of the cache, where no directory is. -/
theorem keep_eq (h : cache.CanKeep files made key) (hleads : made.Leads cache.directory location)
    (file : Json) : made.get? (location ++ [entryName key]) ≠ some .directory ∧
      cache.keep made key file
        = made.set (location ++ [entryName key]) (.file file.pretty.toUTF8) := by
  obtain ⟨place, hlocate, hfree, hset⟩ := FileTree.write_eq_ok_iff.mp (h.write_eq file)
  rw [locate_pathOf_of_fits hleads h.fits] at hlocate
  rw [← Except.ok.inj hlocate] at hfree hset
  exact ⟨hfree, hset⟩

theorem leads_keep (h : cache.CanKeep files made key) (hleads : made.Leads cache.directory location)
    (file : Json) : (cache.keep made key file).Leads cache.directory location := by
  obtain ⟨hfree, hset⟩ := h.keep_eq hleads file
  rw [hset]
  exact hleads.set_file hfree _

theorem get?_keep (h : cache.CanKeep files made key) (hleads : made.Leads cache.directory location)
    (file : Json) (place : Location) : (cache.keep made key file).get? place
      = if place = location ++ [entryName key] then some (.file file.pretty.toUTF8)
        else made.get? place := by
  rw [(h.keep_eq hleads file).2]
  exact FileTree.get?_set made (by simp) _ _

end CanKeep

/-! ### Looking up -/

/-- What the text of a file says is the file. -/
theorem decode_pretty (h : (Json.obj fields).isReadable = true) :
    decode (Json.obj fields).pretty.toUTF8 = .found fields := by
  rw [decode, Text.fromUTF8?_toUTF8]
  dsimp only
  rw [Json.read_pretty h]

theorem lookup_of_read {content : ByteArray} (h : files.read (cache.pathOf key) = .ok content) :
    cache.lookup files key = .ok (decode content) := by
  obtain ⟨location, hlocate, hget⟩ := FileTree.read_eq_ok_iff.mp h
  rw [lookup, FileTree.find_of_locate hlocate, hget]
  dsimp only
  rw [h]

theorem lookup_of_find_eq_none (h : files.find (cache.pathOf key) = .ok none) :
    cache.lookup files key = .ok .absent := by
  rw [lookup, h]

/-- What a lookup says depends on what the path of the entry stands for. -/
theorem lookup_of_sameAt {files' : FileTree} (h : FileTree.SameAt files files' (cache.pathOf key)) :
    cache.lookup files' key = cache.lookup files key := by
  rw [lookup, lookup, h.find_eq, h.read_eq]

/-- The entry of the key is the UTF-8 text of an object. -/
def Holds (cache : DocumentCache) (files : FileTree) (key : String) (fields : Fields) : Prop :=
  ∃ content text, files.read (cache.pathOf key) = .ok content ∧
    String.fromUTF8? content = some text ∧ Json.read text = .ok (.obj fields)

namespace CanKeep

theorem lookup_keep_self (h : cache.CanKeep files made key)
    (hreadable : (Json.obj fields).isReadable = true) :
    cache.lookup (cache.keep made key (.obj fields)) key = .ok (.found fields) := by
  rw [lookup_of_read (FileTree.read_of_write (h.write_eq (.obj fields))), decode_pretty hreadable]

/-- Keeping a file changes nothing that the paths of the other keys stand for. -/
theorem sameAt_keep_of_ne (h : cache.CanKeep files made key) (file : Json)
    (hother : Text.safeName other ≠ Text.safeName key) :
    FileTree.SameAt made (cache.keep made key file) (cache.pathOf other) := by
  obtain ⟨location, hleads, -⟩ := h.exists_leads
  have hmade := locate_pathOf hleads other
  have hkept := locate_pathOf (h.leads_keep hleads file) other
  split at hmade
  case isTrue hlong =>
    rw [if_pos hlong] at hkept
    exact .of_locate_error hmade hkept
  case isFalse hshort =>
    rw [if_neg hshort] at hkept
    refine .of_locate_ok hmade hkept ?_
    rw [h.get?_keep hleads, if_neg]
    intro heq
    exact hother (entryName_eq_iff.mp (by simpa using heq))

/-- What can be kept before another file is kept can be kept afterwards, and no directory has to be
made any more. -/
theorem keep (h : cache.CanKeep files made key) (h' : cache.CanKeep files made other) (file : Json) :
    cache.CanKeep (cache.keep made key file) (cache.keep made key file) other := by
  obtain ⟨location, hleads, hfree⟩ := h'.exists_leads
  have hleads' := h.leads_keep hleads file
  refine ⟨FileTree.makeDirectories_of_leads hleads', _,
    FileTree.find_of_locate (locate_pathOf_of_fits hleads' h'.fits), ?_⟩
  rw [h.get?_keep hleads]
  split
  case isTrue => simp
  case isFalse => exact hfree

theorem lookup_keep_of_ne (h : cache.CanKeep files made key) (file : Json)
    (hother : Text.safeName other ≠ Text.safeName key) :
    cache.lookup (cache.keep made key file) other = cache.lookup made other :=
  lookup_of_sameAt (h.sameAt_keep_of_ne file hother)

/-- Before the directory is made, the entry is as it will be then, or absent since its path leads
nowhere. -/
theorem lookup_cases (h : cache.CanKeep files made key) :
    cache.lookup files key = .ok .absent ∨ cache.lookup files key = cache.lookup made key := by
  obtain ⟨location, hleads, hfree⟩ := h.exists_leads
  have hmade := locate_pathOf_of_fits hleads h.fits
  rcases h.grows.locate_cases hmade with hfound | hmissing
  · exact Or.inr (lookup_of_sameAt (.of_locate_ok hmade hfound (h.grows.get?_of_ne hfree)))
  · refine Or.inl (lookup_of_find_eq_none ?_)
    rw [FileTree.find, hmissing]

end CanKeep

theorem lookup_congr_name (h : Text.safeName other = Text.safeName key) :
    cache.lookup files other = cache.lookup files key := by
  have hpath : cache.pathOf other = cache.pathOf key := by rw [pathOf, pathOf, h]
  rw [lookup, lookup, hpath]

/-! ### Performing -/

theorem perform_read (cache : DocumentCache) (key : String) (s : Session) :
    (cache.read key).perform s = match cache.lookup s.files key with
      | .ok entry => (.ok entry.kept, s.reported entry.events)
      | .error e => (.error (.file e), s) := by
  rw [read, Action.perform_bind, Action.perform_files]
  dsimp only
  rw [Action.perform_bind, Action.perform_ofExcept]
  cases cache.lookup s.files key with
  | error e => rfl
  | ok entry => cases entry <;> rfl

/-- A write makes the directory and then writes the entry; what was made stays made if the entry
cannot be written. -/
theorem perform_write (cache : DocumentCache) (key : String) (file : Json) (s : Session) :
    (cache.write key file).perform s = match s.files.makeDirectories cache.directory with
      | (made, .error e) => (.error (.file e), { s with files := made })
      | (made, .ok ()) => match made.write (cache.pathOf key) file.pretty.toUTF8 with
        | .error e => (.error (.file e), { s with files := made })
        | .ok tree => (.ok (cache.pathOf key), { s with files := tree }.reported [.cacheSaved]) := by
  rw [write, Action.perform_bind, Action.perform_makeDirectories]
  cases s.files.makeDirectories cache.directory with
  | mk made answer =>
    cases answer with
    | error e => rfl
    | ok _ =>
      show Action.perform _ { s with files := made } = _
      rw [Action.perform_bind, Action.perform_writeFile]
      dsimp only
      cases made.write (cache.pathOf key) file.pretty.toUTF8 <;> rfl

theorem CanKeep.perform_write (h : cache.CanKeep s.files made key) (file : Json) :
    (cache.write key file).perform s = (.ok (cache.pathOf key),
      { s with files := cache.keep made key file }.reported [.cacheSaved]) := by
  rw [DocumentCache.perform_write, h.makes]
  dsimp only
  rw [h.write_eq]

/-- The part of fetching that comes when nothing is kept: the source is asked, and what it gives is
kept. -/
def renew (cache : DocumentCache) (source : String → Action Json) (key : String) : Action Json := do
  Action.report [.fetching]
  let file ← source key
  let _ ← cache.write key file
  return file

theorem perform_fetch_of_found (source : String → Action Json)
    (h : cache.lookup s.files key = .ok (.found fields)) :
    (cache.fetch source key).perform s = (.ok (.obj fields), s.reported [.cacheLoaded]) := by
  have hread : (cache.read key).perform s = (.ok (some fields), s) := by
    rw [perform_read, h]
    show (_, s.reported []) = _
    rw [Session.reported_nil]
    rfl
  rw [fetch, Action.perform_bind_of_ok hread]
  rfl

theorem perform_fetch_of_missing (source : String → Action Json)
    (h : cache.lookup s.files key = .ok entry) (hmissing : entry.kept = none) :
    (cache.fetch source key).perform s
      = (cache.renew source key).perform (s.reported entry.events) := by
  have hread : (cache.read key).perform s = (.ok none, s.reported entry.events) := by
    rw [perform_read, h, ← hmissing]
  rw [fetch, Action.perform_bind_of_ok hread]
  rfl

/-! ### Names that are too long -/

/-- The file system refuses a name that is too long, and nothing is written. -/
theorem perform_write_of_long (hmakes : s.files.makeDirectories cache.directory = (made, .ok ()))
    (hlong : FileTree.maxNameBytes < (entryName key).utf8ByteSize) (file : Json) :
    (cache.write key file).perform s
      = (.error (.file .nameTooLong), { s with files := made }) := by
  obtain ⟨location, hleads⟩ := FileTree.exists_leads_of_makeDirectories hmakes
  have hlocate : made.locate (cache.pathOf key) = .error .nameTooLong := by
    rw [locate_pathOf hleads, if_pos (Or.inr hlong)]
  have hwrite : made.write (cache.pathOf key) file.pretty.toUTF8 = .error .nameTooLong := by
    rw [FileTree.write, hlocate]
    rfl
  rw [perform_write, hmakes]
  dsimp only
  rw [hwrite]

theorem perform_read_of_long (hleads : s.files.Leads cache.directory location)
    (hlong : FileTree.maxNameBytes < (entryName key).utf8ByteSize) :
    (cache.read key).perform s = (.error (.file .nameTooLong), s) := by
  have hlocate : s.files.locate (cache.pathOf key) = .error .nameTooLong := by
    rw [locate_pathOf hleads, if_pos (Or.inr hlong)]
  rw [perform_read, lookup, FileTree.find, hlocate]

/-- A key of so many letters. -/
def letters (n : Nat) : String := String.ofList (List.replicate n 'k')

theorem utf8ByteSize_entryName_letters {n : Nat} (hn : n ≠ 0) :
    (entryName (letters n)).utf8ByteSize = n + 5 := by
  have hlist : (letters n).toList = List.replicate n 'k' := String.toList_ofList
  have hsafe : Text.IsSafeName (letters n) := by
    refine ⟨by simpa [hlist] using hn, by simp [hlist, List.head?_replicate, hn], fun c hc => ?_⟩
    rw [hlist] at hc
    rw [List.eq_of_mem_replicate hc]
    rfl
  rw [entryName, String.utf8ByteSize_append, Text.safeName_eq_self hsafe,
    Text.utf8ByteSize_of_isSafeName hsafe, letters, String.length_ofList, List.length_replicate]
  rfl

theorem long_letters : FileTree.maxNameBytes < (entryName (letters 300)).utf8ByteSize := by
  rw [utf8ByteSize_entryName_letters (by decide)]
  decide

/-- While the directory is missing, even a name that is too long stands for nothing. -/
theorem find_letters : FileTree.empty.find (standard.pathOf (letters 300)) = .ok none := by
  have hshort : (standard.pathOf (letters 300)).text.utf8ByteSize < FileTree.pathBytesLimit := by
    rw [pathOf_eq, Path.text_child (by decide), String.utf8ByteSize_append,
      utf8ByteSize_entryName_letters (by decide)]
    decide
  have hdirectory : FileTree.empty.locate standard.directory = .ok ["work", ".cache"] := rfl
  exact FileTree.find_child_of_missing (by decide) hdirectory rfl (nul_notMem_entryName _) hshort

end DocumentCache

end FrameExport
