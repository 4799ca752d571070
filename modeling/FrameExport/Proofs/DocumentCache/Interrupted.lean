import FrameExport.Proofs.DocumentCache.Entry
import FrameExport.Proofs.Json.Truncated

/-!
# Interrupted writes

A write that is cut short leaves a beginning of the bytes of the file.  Such a beginning is never the
text of a value: either it ends within a character, or it is a beginning of the text, behind which
something is still open (`Json.exists_read_eq_error_of_prefix`).  So a read of the key gives nothing,
and a fetch asks the source (`read_of_interrupted`).
-/

namespace FrameExport.DocumentCache

variable {cache : DocumentCache} {key : String} {fields : Fields} {content rest : ByteArray}
  {s t t' : Session} {path : Path}

/-- What a write that succeeds stores under the key is the text of the file. -/
theorem read_of_perform_write {file : Json} (h : (cache.write key file).perform t = (.ok path, t')) :
    t'.files.read (cache.pathOf key) = .ok file.pretty.toUTF8 := by
  rw [perform_write] at h
  split at h
  case h_1 => cases h
  case h_2 made hmade =>
    split at h
    case h_1 => cases h
    case h_2 tree hwrite =>
      cases h
      exact FileTree.read_of_write hwrite

/-- A part of the bytes of an object from the beginning says nothing. -/
theorem decode_of_interrupted (hcut : content ++ rest = (Json.obj fields).pretty.toUTF8)
    (hrest : rest.size ≠ 0) : decode content = .unreadable := by
  rw [decode]
  cases htext : String.fromUTF8? content with
  | none => rfl
  | some text =>
    have hbegin := Text.prefix_of_fromUTF8? hcut htext
    have hne : text ≠ (Json.obj fields).pretty := by
      rintro rfl
      rw [← Text.toUTF8_of_fromUTF8? htext] at hcut
      have hsize := congrArg ByteArray.size hcut
      rw [ByteArray.size_append] at hsize
      omega
    obtain ⟨e, he⟩ := Json.exists_read_eq_error_of_prefix hbegin hne
    dsimp only
    rw [he]

/-- A proper beginning of what a write stores counts as no entry: a read gives nothing, and a fetch
goes on to ask the source. -/
theorem read_of_interrupted (hcut : content ++ rest = (Json.obj fields).pretty.toUTF8)
    (hrest : rest.size ≠ 0) (hentry : s.files.read (cache.pathOf key) = .ok content) :
    (∀ t t' path, (cache.write key (.obj fields)).perform t = (.ok path, t') →
      t'.files.read (cache.pathOf key) = .ok (content ++ rest)) ∧
    (cache.read key).perform s = (.ok none, s.reported [.cacheUnreadable]) ∧
    ∀ source, (cache.fetch source key).perform s
      = (cache.renew source key).perform (s.reported [.cacheUnreadable]) := by
  have hlookup : cache.lookup s.files key = .ok .unreadable := by
    rw [lookup_of_read hentry, decode_of_interrupted hcut hrest]
  refine ⟨fun _ _ _ hwrite => ?_, ?_, fun source => perform_fetch_of_missing source hlookup rfl⟩
  · rw [hcut]
    exact read_of_perform_write hwrite
  · rw [perform_read, hlookup]
    rfl

/-- The bytes of an object with an accented name, up to the middle of the accented letter. -/
def cutAccent : ByteArray := ⟨#[0x7B, 0x0A, 0x20, 0x20, 0x22, 0xC3]⟩

/-- A write that was cut short within a character. -/
theorem read_of_interrupted_accent :
    let rest : ByteArray := ⟨#[0xA9, 0x22, 0x3A, 0x20, 0x31, 0x0A, 0x7D]⟩
    let files := FileTree.empty.set ["work", "k.json"] (.file cutAccent)
    let s := Session.start files [] []
    cutAccent ++ rest = (Json.obj [("é", .int 1)]).pretty.toUTF8 ∧ rest.size ≠ 0 ∧
      files.read ((ofDirectory ".").pathOf "k") = .ok cutAccent ∧
      ((ofDirectory ".").read "k").perform s = (.ok none, s.reported [.cacheUnreadable]) := by
  intro rest files s
  have hcut : cutAccent ++ rest = (Json.obj [("é", .int 1)]).pretty.toUTF8 := by decide
  have hrest : rest.size ≠ 0 := by decide
  have hentry : files.read ((ofDirectory ".").pathOf "k") = .ok cutAccent := rfl
  exact ⟨hcut, hrest, hentry, (read_of_interrupted (s := s) hcut hrest hentry).2.1⟩

end FrameExport.DocumentCache
