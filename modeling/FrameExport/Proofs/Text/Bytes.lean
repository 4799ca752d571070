/-!
# Texts and their bytes

A text read from its own UTF-8 bytes is the text (`fromUTF8?_toUTF8`).  Bytes at the front of the
bytes of a text may end within a character, and then they are the bytes of no text; if they are the
bytes of one, its characters stand at the front of the others (`prefix_of_fromUTF8?`).
-/

namespace FrameExport.Text

variable {content rest : ByteArray} {s t : String}

theorem toUTF8_of_fromUTF8? (h : String.fromUTF8? content = some s) : s.toUTF8 = content := by
  unfold String.fromUTF8? at h
  split at h
  · cases h
    rfl
  · cases h

theorem fromUTF8?_toUTF8 (s : String) : String.fromUTF8? s.toUTF8 = some s :=
  dif_pos s.isValidUTF8

/-- No character begins with the bytes of another, so the characters are told apart one by one. -/
theorem prefix_of_utf8Encode_append :
    ∀ {cs ds : List Char}, cs.utf8Encode ++ rest = ds.utf8Encode → cs <+: ds
  | [], ds, _ => List.nil_prefix
  | c :: cs, [], h => by
    have hempty : [c].utf8Encode ++ (cs.utf8Encode ++ rest) = ByteArray.empty := by
      rw [← ByteArray.append_assoc, ← List.utf8Encode_cons, h, List.utf8Encode_nil]
    have hread : ([c].utf8Encode ++ (cs.utf8Encode ++ rest)).utf8DecodeChar? 0 = some c :=
      List.utf8DecodeChar?_utf8Encode_singleton_append
    rw [hempty] at hread
    cases hread
  | c :: cs, d :: ds, h => by
    rw [List.utf8Encode_cons, ByteArray.append_assoc] at h
    obtain rfl : c = d := by
      have hread : ([c].utf8Encode ++ (cs.utf8Encode ++ rest)).utf8DecodeChar? 0 = some c :=
        List.utf8DecodeChar?_utf8Encode_singleton_append
      rw [h, List.utf8DecodeChar?_utf8Encode_cons] at hread
      exact (Option.some.inj hread).symm
    rw [List.utf8Encode_cons (l := ds), ByteArray.append_right_inj] at h
    rw [List.cons_prefix_cons]
    exact ⟨rfl, prefix_of_utf8Encode_append h⟩

/-- A text at the front of the bytes of another is the beginning of it. -/
theorem prefix_of_fromUTF8? (hcut : content ++ rest = t.toUTF8)
    (hs : String.fromUTF8? content = some s) : s.toList <+: t.toList := by
  have hencode : s.toList.utf8Encode ++ rest = t.toList.utf8Encode := by
    rw [String.utf8Encode_toList, String.utf8Encode_toList]
    rwa [← toUTF8_of_fromUTF8? hs] at hcut
  exact prefix_of_utf8Encode_append hencode

end FrameExport.Text
