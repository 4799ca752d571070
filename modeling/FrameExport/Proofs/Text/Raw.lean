import FrameExport.Text.Raw

/-!
# Which texts can be encoded

A text can be encoded if and only if no half of a surrogate pair stands in it.
-/

namespace FrameExport.RawText

theorem mapM_char?_map (cs : List Char) : (cs.map CodePoint.char).mapM CodePoint.char? = some cs := by
  induction cs with
  | nil => rfl
  | cons c cs ih => simp [List.mapM_cons, CodePoint.char?, ih]

theorem mapM_char?_eq_none_iff (points : List CodePoint) :
    points.mapM CodePoint.char? = none ↔ ∃ n, CodePoint.half n ∈ points := by
  induction points with
  | nil => simp
  | cons point points ih =>
    cases point with
    | char c =>
      have hmem : (∃ n, CodePoint.half n ∈ CodePoint.char c :: points)
          ↔ ∃ n, CodePoint.half n ∈ points := by simp
      rw [hmem, ← ih, List.mapM_cons]
      cases points.mapM CodePoint.char? <;> simp [CodePoint.char?]
    | half n =>
      simp only [List.mapM_cons, CodePoint.char?, Option.bind_eq_bind, Option.bind_none, true_iff]
      exact ⟨n, List.mem_cons_self⟩

/-- A text of characters is encoded as it stands. -/
@[simp] theorem encode?_ofString (s : String) : encode? s = some s.toUTF8 := by
  rw [encode?, ofString, mapM_char?_map]
  exact congrArg (fun text => some (String.toUTF8 text)) String.ofList_toList

/-- A text cannot be encoded if half of a surrogate pair stands in it. -/
theorem encode?_eq_none_iff (text : RawText) :
    text.encode? = none ↔ ∃ n, CodePoint.half n ∈ text.points := by
  rw [← mapM_char?_eq_none_iff, encode?]
  cases text.points.mapM CodePoint.char? <;> simp

end FrameExport.RawText
