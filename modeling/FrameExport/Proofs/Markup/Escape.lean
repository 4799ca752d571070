import FrameExport.Page.Writer

/-!
# Escaped texts

`Markup.unescape` puts characters in place of the references that the escapes write.  It undoes both
of them (`unescape_escape`, `unescape_escapeQuoted`), and leaves a text without references alone.

An escaped text has no character that would open a tag, and one that is escaped for an attribute
none that would end its value.
-/

namespace FrameExport.Markup

/-- A text with the five references read as the characters that they stand for. -/
def unescape : List Char → List Char
  | '&' :: 'a' :: 'm' :: 'p' :: ';' :: cs => '&' :: unescape cs
  | '&' :: 'l' :: 't' :: ';' :: cs => '<' :: unescape cs
  | '&' :: 'g' :: 't' :: ';' :: cs => '>' :: unescape cs
  | '&' :: 'q' :: 'u' :: 'o' :: 't' :: ';' :: cs => '"' :: unescape cs
  | '&' :: '#' :: 'x' :: '2' :: '7' :: ';' :: cs => '\'' :: unescape cs
  | c :: cs => c :: unescape cs
  | [] => []

variable {c : Char}

theorem unescape_cons (h : c ≠ '&') (cs : List Char) : unescape (c :: cs) = c :: unescape cs := by
  rw [unescape.eq_6]
  all_goals
    intro rest heq
    exact absurd heq h

theorem unescape_of_notMem {cs : List Char} (h : '&' ∉ cs) : unescape cs = cs := by
  induction cs with
  | nil => rfl
  | cons c cs ih =>
    rw [List.mem_cons, not_or] at h
    rw [unescape_cons (Ne.symm h.1), ih h.2]

/-! ### Between tags -/

theorem escapeChar_of_ne (hamp : c ≠ '&') (hlt : c ≠ '<') (hgt : c ≠ '>') :
    escapeChar c = [c] := by
  rw [escapeChar, if_neg hamp, if_neg hlt, if_neg hgt]

theorem unescape_escapeChar (c : Char) (cs : List Char) :
    unescape (escapeChar c ++ cs) = c :: unescape cs := by
  by_cases hamp : c = '&'
  · subst hamp
    rfl
  by_cases hlt : c = '<'
  · subst hlt
    rfl
  by_cases hgt : c = '>'
  · subst hgt
    rfl
  rw [escapeChar_of_ne hamp hlt hgt, List.singleton_append, unescape_cons hamp]

theorem unescape_escape (s : String) : unescape (escape s) = s.toList := by
  unfold escape
  induction s.toList with
  | nil => rfl
  | cons c cs ih => rw [List.flatMap_cons, unescape_escapeChar, ih]

theorem lt_notMem_escape (s : String) : '<' ∉ escape s := by
  intro hmem
  obtain ⟨c, -, hc⟩ := List.mem_flatMap.mp hmem
  unfold escapeChar at hc
  split at hc
  · exact absurd hc (by decide)
  · rename_i hamp
    split at hc
    · exact absurd hc (by decide)
    · rename_i hlt
      split at hc
      · exact absurd hc (by decide)
      · exact hlt (List.mem_singleton.mp hc).symm

/-! ### In attributes -/

theorem unescape_escapeQuotedChar (c : Char) (cs : List Char) :
    unescape (escapeQuotedChar c ++ cs) = c :: unescape cs := by
  by_cases hquote : c = '"'
  · subst hquote
    rfl
  by_cases hapostrophe : c = '\''
  · subst hapostrophe
    rfl
  rw [escapeQuotedChar, if_neg hquote, if_neg hapostrophe, unescape_escapeChar]

theorem unescape_escapeQuoted (s : String) : unescape (escapeQuoted s) = s.toList := by
  unfold escapeQuoted
  induction s.toList with
  | nil => rfl
  | cons c cs ih => rw [List.flatMap_cons, unescape_escapeQuotedChar, ih]

theorem quote_notMem_escapeChar (h : c ≠ '"') : '"' ∉ escapeChar c := by
  unfold escapeChar
  split
  · decide
  · split
    · decide
    · split
      · decide
      · rw [List.mem_singleton]
        exact Ne.symm h

theorem quote_notMem_escapeQuoted (s : String) : '"' ∉ escapeQuoted s := by
  intro hmem
  obtain ⟨c, -, hc⟩ := List.mem_flatMap.mp hmem
  unfold escapeQuotedChar at hc
  split at hc
  · exact absurd hc (by decide)
  · rename_i hquote
    split at hc
    · exact absurd hc (by decide)
    · exact quote_notMem_escapeChar hquote hc

end FrameExport.Markup
