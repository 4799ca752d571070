import FrameExport.Text.Blank

/-!
# Names that are safe as file names

`safeName` turns any text into a file name of letters, digits, low lines, hyphens and points that
does not begin with a point and is not empty.  Such a name stays inside its directory.
-/

namespace FrameExport.Text

/-- The characters that a safe name is made of. -/
def isSafeChar (c : Char) : Bool := c.isAlphanum || c == '_' || c == '.' || c == '-'

/-- A text with each run of other characters replaced by one low line; `inRun` tells that the text
continues such a run. -/
def replaceUnsafe (inRun : Bool) : List Char → List Char
  | [] => []
  | c :: cs =>
    if isSafeChar c then c :: replaceUnsafe false cs
    else if inRun then replaceUnsafe true cs
    else '_' :: replaceUnsafe true cs

/-- The safe name of a list of characters: blanks at the ends are dropped, runs of other characters
replaced, points at the front dropped, and an empty result becomes a low line. -/
def safeChars (cs : List Char) : List Char :=
  match (replaceUnsafe false (trim isBlank cs)).dropWhile (· == '.') with
  | [] => ['_']
  | name => name

/-- The safe name of a text. -/
def safeName (s : String) : String := String.ofList (safeChars s.toList)

/-- Only safe characters are left after the replacement. -/
theorem isSafeChar_of_mem_replaceUnsafe {c : Char} :
    ∀ {cs : List Char} {inRun : Bool}, c ∈ replaceUnsafe inRun cs → isSafeChar c = true
  | [], _, h => by simp [replaceUnsafe] at h
  | d :: cs, inRun, h => by
    unfold replaceUnsafe at h
    split at h
    · rcases List.mem_cons.1 h with rfl | h
      · assumption
      · exact isSafeChar_of_mem_replaceUnsafe h
    · split at h
      · exact isSafeChar_of_mem_replaceUnsafe h
      · rcases List.mem_cons.1 h with rfl | h
        · decide
        · exact isSafeChar_of_mem_replaceUnsafe h

end FrameExport.Text
