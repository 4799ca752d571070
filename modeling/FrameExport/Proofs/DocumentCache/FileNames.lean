import FrameExport.Proofs.DocumentCache.Entry
import Mathlib.Data.Set.Function

/-!
# Where the entries of a cache lie

The characters of safe names are letters, digits, the low line, the point and the hyphen
(`Text.isSafeChar_iff_mem`), so a safe name has no slash in it.  With its ending it is a single name
when it is read as a path, and one that does not lead up (`DocumentCache.isDirectlyIn_pathOf`).

The headline is `DocumentCache.entries_lie_in_directory`: whatever the key is, its entry lies directly
in the directory of the cache, and the safe names are exactly the texts that `safeName` leaves as they
are.
-/

namespace FrameExport

namespace Text

variable {c : Char} {s : String}

/-! ### Names that are left as they are -/

/-- The characters that every file system takes in a name. -/
def fileNameCharacters : List Char :=
  "ABCDEFGHIJKLMNOPQRSTUVWXYZabcdefghijklmnopqrstuvwxyz0123456789_.-".toList

theorem isSafeChar_iff_mem : isSafeChar c = true ↔ c ∈ fileNameCharacters := by
  -- safe characters have small code points, which can all be tried
  have hsmall : ∀ n < 0x7F, isSafeChar (Char.ofNat n) = true →
      Char.ofNat n ∈ fileNameCharacters := by
    decide +kernel
  have hall : fileNameCharacters.all isSafeChar = true := by decide +kernel
  constructor
  · intro h
    have hbounds := bounds_of_isSafeChar h
    have hc := hsmall c.toNat (by omega)
    rw [Char.ofNat_toNat] at hc
    exact hc h
  · exact List.all_eq_true.mp hall c

theorem isSafeName_iff : IsSafeName s ↔ s ≠ "" ∧ (∀ c ∈ s.toList, c ∈ fileNameCharacters) ∧
    s.toList.head? ≠ some '.' := by
  simp only [← isSafeChar_iff_mem]
  constructor
  · intro h
    refine ⟨?_, h.isSafeChar, h.head?_ne⟩
    rintro rfl
    exact h.ne_nil rfl
  · rintro ⟨hne, hchars, hhead⟩
    exact ⟨by simpa using hne, hhead, hchars⟩

/-- A text is left as it is exactly if it is a safe name. -/
theorem safeName_eq_self_iff : safeName s = s ↔ IsSafeName s := by
  refine ⟨fun h => ?_, safeName_eq_self⟩
  rw [← h]
  exact isSafeName_safeName s

theorem injOn_safeName : Set.InjOn safeName {s | IsSafeName s} := by
  intro s hs t ht h
  rwa [safeName_eq_self hs, safeName_eq_self ht] at h

end Text

namespace Path

variable {name : String} {cs : List Char}

/-! ### Single names -/

/-- A path lies directly in a directory: it is the path of the directory with one name behind it,
which is a single name also when it is read as a path, and does not lead up. -/
def IsDirectlyIn (path directory : Path) : Prop :=
  ∃ name, path = directory.child name ∧ ofString name = ⟨0, [name]⟩ ∧ name ≠ ".."

theorem splitAtSlashes_eq_singleton (h : '/' ∉ cs) : splitAtSlashes cs = [cs] := by
  induction cs with
  | nil => rfl
  | cons c cs ih =>
    rw [List.mem_cons, not_or] at h
    rw [splitAtSlashes, if_neg (Ne.symm h.1), ih h.2]

/-- A text without slashes is a single name, unless it is one that says nothing. -/
theorem ofString_eq_of_notMem (hslash : '/' ∉ name.toList) (hempty : name ≠ "")
    (hhere : name ≠ ".") : ofString name = ⟨0, [name]⟩ := by
  have hleading : name.toList.takeWhile (· == '/') = [] := by
    cases hname : name.toList with
    | nil => rfl
    | cons c cs =>
      rw [hname, List.mem_cons, not_or] at hslash
      exact List.takeWhile_cons_of_neg (by simpa using Ne.symm hslash.1)
  have hdot : name.toList ≠ ['.'] := fun h => hhere (String.toList_inj.mp h)
  simp [ofString, namesOf, hleading, splitAtSlashes_eq_singleton hslash, hempty, hdot]

end Path

namespace DocumentCache

/-! ### The paths of entries -/

theorem isDirectlyIn_pathOf (cache : DocumentCache) (key : String) :
    (cache.pathOf key).IsDirectlyIn cache.directory := by
  have hslash : '/' ∉ (entryName key).toList := notMem_entryName (by decide) (by decide) key
  refine ⟨entryName key, pathOf_eq cache key, ?_, entryName_ne_up key⟩
  exact Path.ofString_eq_of_notMem hslash (entryName_ne (by decide) key) (entryName_ne (by decide) key)

/-- Where the path of an entry leads, it leads to one name in the directory of the cache. -/
theorem eq_of_locate_pathOf {cache : DocumentCache} {files : FileTree} {location place : Location}
    {key : String} (hleads : files.Leads cache.directory location)
    (hplace : files.locate (cache.pathOf key) = .ok place) :
    place = location ++ [entryName key] := by
  rw [locate_pathOf hleads] at hplace
  split at hplace
  · cases hplace
  · exact (Except.ok.inj hplace).symm

/-- **Entries lie in the directory of the cache.**  For every key the safe name is not empty, has
only letters, digits, low lines, points and hyphens in it, and does not begin with a point; the entry
lies directly in the directory of the cache, as it is written and in every tree of files.  A safe name
made safe stays the same, a text is left as it is exactly if it meets those three conditions, and such
texts have different names. -/
theorem entries_lie_in_directory (cache : DocumentCache) (key : String) :
    (Text.safeName key ≠ "" ∧ (∀ c ∈ (Text.safeName key).toList, c ∈ Text.fileNameCharacters) ∧
        (Text.safeName key).toList.head? ≠ some '.') ∧
      (cache.pathOf key).IsDirectlyIn cache.directory ∧
      (∀ (files : FileTree) location place, files.Leads cache.directory location →
        files.locate (cache.pathOf key) = .ok place → ∃ name, place = location ++ [name]) ∧
      Text.safeName (Text.safeName key) = Text.safeName key ∧
      (Text.safeName key = key ↔ key ≠ "" ∧ (∀ c ∈ key.toList, c ∈ Text.fileNameCharacters) ∧
        key.toList.head? ≠ some '.') ∧
      Set.InjOn Text.safeName {s | s ≠ "" ∧ (∀ c ∈ s.toList, c ∈ Text.fileNameCharacters) ∧
        s.toList.head? ≠ some '.'} := by
  simp only [← Text.isSafeName_iff]
  refine ⟨Text.isSafeName_safeName key, isDirectlyIn_pathOf cache key, ?_,
    Text.safeName_safeName key, Text.safeName_eq_self_iff, Text.injOn_safeName⟩
  intro files location place hleads hplace
  exact ⟨entryName key, eq_of_locate_pathOf hleads hplace⟩

/-- A key that would lead up and into another directory is made one name. -/
example : Text.safeName " ../a b" = "_a_b" := by decide +kernel

end DocumentCache

end FrameExport
