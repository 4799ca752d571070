import FrameExport.Json.Reader
import FrameExport.Json.Writer
import Mathlib.Data.List.Basic

/-!
# Quoted texts read back

What `quoted` writes is what `readText` reads: each character is written so that reading it gives
the character and leaves what follows (`readText_escapeChar`), and the closing mark ends the text
(`readText_quoted`).  So a quoted text determines both the text and what follows it
(`quoted_append_inj`).
-/

namespace FrameExport.Json

/-- The control characters are written with four hexadecimal digits that denote them. -/
theorem hexDigits_of_lt : ∀ n < 0x20, hexDigits 4 n
    = ['0', '0', Nat.digitChar (n / 16), Nat.digitChar (n % 16)] ∧
      hexValue4? '0' '0' (Nat.digitChar (n / 16)) (Nat.digitChar (n % 16)) = some n := by
  decide

/-- Reading four hexadecimal digits of a number that is no surrogate. -/
theorem readText_hex (start acc : List Char) {a b c d : Char} {n : Nat} {rest : List Char}
    (hn : hexValue4? a b c d = some n) (hlow : n < 0x20) (hrest : rest ≠ []) :
    readText start acc ('\\' :: 'u' :: a :: b :: c :: d :: rest)
      = readText start (Char.ofNat n :: acc) rest := by
  have hhigh : Text.isHighSurrogate n = false := by
    simp only [Text.isHighSurrogate, Bool.and_eq_false_iff, decide_eq_false_iff_not]
    omega
  have hchar : Text.charOf n = Char.ofNat n := by
    have hlow' : Text.isLowSurrogate n = false := by
      simp only [Text.isLowSurrogate, Bool.and_eq_false_iff, decide_eq_false_iff_not]
      omega
    rw [Text.charOf, hhigh, hlow']
    rfl
  -- the digits are read in four ways, by what follows them
  rw [readText.eq_def]
  simp only [hn]
  split
  · rename_i h
    exact absurd h (by simp)
  · rename_i h _
    exact absurd rfl hrest
  · rename_i h
    obtain rfl := Option.some.inj h
    rw [hhigh, hchar]
    rfl
  · rename_i h _ _
    obtain rfl := Option.some.inj h
    rw [hchar]

theorem readText_plain (start acc : List Char) {c : Char} (rest : List Char) (hquote : c ≠ '"')
    (hbackslash : c ≠ '\\') (hlow : ¬ c.toNat < 0x20) :
    readText start acc (c :: rest) = readText start (c :: acc) rest := by
  rw [readText.eq_def]
  split
  · rename_i h
    cases h
  · rename_i h
    exact absurd (List.cons.inj h).1 hquote
  · rename_i h
    exact absurd (List.cons.inj h).1 hbackslash
  · rename_i h
    exact absurd (List.cons.inj h).1 hbackslash
  · rename_i h
    exact absurd (List.cons.inj h).1 hbackslash
  · rename_i h
    obtain ⟨rfl, rfl⟩ := List.cons.inj h
    rw [if_neg hlow]

theorem readText_escapeChar (start acc : List Char) (c : Char) {rest : List Char}
    (hrest : rest ≠ []) :
    readText start acc (escapeChar c ++ rest) = readText start (c :: acc) rest := by
  unfold escapeChar
  split
  · simp [readText, unescape?, *]
  split
  · simp [readText, unescape?, *]
  split
  · simp [readText, unescape?, *]
  split
  · simp [readText, unescape?, *]
  split
  · simp [readText, unescape?, *]
  split
  · rename_i hb
    have hc : Char.ofNat 0x08 = c := by rw [← hb, Char.ofNat_toNat]
    simp [readText, unescape?, ← hc]
  split
  · rename_i hf
    have hc : Char.ofNat 0x0C = c := by rw [← hf, Char.ofNat_toNat]
    simp [readText, unescape?, ← hc]
  split
  -- a control character without a letter of its own
  · rename_i hlow
    obtain ⟨hdigits, hvalue⟩ := hexDigits_of_lt c.toNat hlow
    rw [hdigits]
    have hread := readText_hex start acc hvalue hlow hrest
    rwa [Char.ofNat_toNat] at hread
  · rename_i hquote hbackslash _ _ _ _ _ hlow
    exact readText_plain start acc rest hquote hbackslash hlow

theorem readText_flatMap_escapeChar (start acc cs rest : List Char) :
    readText start acc (cs.flatMap escapeChar ++ '"' :: rest) = .ok (acc.reverse ++ cs, rest) := by
  induction cs generalizing acc with
  | nil => simp [readText]
  | cons c cs ih =>
    rw [List.flatMap_cons, List.append_assoc, readText_escapeChar start acc c (by simp), ih]
    simp

/-- A quoted text reads back as the text, and what follows it is left. -/
theorem readText_quoted (start : List Char) (s : String) (rest : List Char) :
    readText start [] (s.toList.flatMap escapeChar ++ '"' :: rest) = .ok (s.toList, rest) :=
  readText_flatMap_escapeChar start [] s.toList rest

/-- A quoted text ends where it says. -/
theorem quoted_append_inj {s t : String} {rest rest' : List Char}
    (h : quoted s ++ rest = quoted t ++ rest') : s = t ∧ rest = rest' := by
  have htail : s.toList.flatMap escapeChar ++ '"' :: rest
      = t.toList.flatMap escapeChar ++ '"' :: rest' := by
    simpa [quoted] using h
  -- reading one text in two ways gives the text and the rest of each
  have hread := readText_quoted [] s rest
  rw [htail, readText_quoted] at hread
  obtain ⟨hst, hrest⟩ := Prod.mk.inj (Except.ok.inj hread)
  exact ⟨(String.toList_injective hst).symm, hrest.symm⟩

end FrameExport.Json
