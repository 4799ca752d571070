import FrameExport.Proofs.Stylesheet.Reader
import FrameExport.Typography

/-!
# The value of a quoted string

`StringToken.read` reads the string at the front of a style sheet as browsers do: it gives the value
of the string and what is left behind it, and nothing if the string is a bad one.  A backslash
escapes the mark that would end the string, another backslash and the end of a line, which counts
for nothing then, and in front of hexadecimal digits it stands for the character with that number.
A string is bad if a line ends in it without a backslash.

The family of a text is written with a backslash in front of the two marks only.  What is read back
depends on the line breaks in it: `readRest_escaped` gives the value if there are none, and
`readRest_escaped_eq_none` says that the string is bad otherwise.  Both together are
`read_family_iff`.
-/

namespace FrameExport.StringToken

open SheetReader (Unbroken hexValue? isLineBreak)
open Text (isSpace)
open Typography (escapeChar family)

/-! ### Reading a string -/

/-- Where the reader is in a string. -/
inductive Place where
  | inside
  /-- Behind a backslash. -/
  | escape
  /-- In the number of an escaped character. -/
  | hex (digits value : Nat)
  /-- Behind a carriage return that belongs to an escape; a line feed behind it does so too. -/
  | afterReturn
deriving DecidableEq, Repr

/-- Stands for a character that cannot be in a style sheet. -/
def replacement : Char := '\ufffd'

/-- A character as it is taken from a style sheet; the character zero cannot be in one. -/
def readable (c : Char) : Char := if c = '\x00' then replacement else c

/-- The character with a number. -/
def numbered (n : Nat) : Char := if n ≠ 0 ∧ n.isValidChar then Char.ofNat n else replacement

/-- A character more at the front of what has been read. -/
def put (c : Char) (read? : Option (List Char × List Char)) : Option (List Char × List Char) :=
  read?.map fun (value, rest) => (c :: value, rest)

/-- What a character does that stands for itself in a string, where `next` reads on behind it. -/
def readChar (mark c : Char) (rest : List Char)
    (next : Place → Option (List Char × List Char)) : Option (List Char × List Char) :=
  if c = mark then some ([], rest)
  else if isLineBreak c then none
  else if c = '\\' then next .escape
  else put (readable c) (next .inside)

/-- The value of what is left of a string, and the text behind the string.  The end of the style
sheet ends the string, too. -/
def readRest (mark : Char) : Place → List Char → Option (List Char × List Char)
  | .hex _ value, [] => some ([numbered value], [])
  | _, [] => some ([], [])
  | .inside, c :: cs => readChar mark c cs fun place => readRest mark place cs
  | .escape, c :: cs =>
    match hexValue? c with
    | some value => readRest mark (.hex 1 value) cs
    | none =>
      if c = '\r' then readRest mark .afterReturn cs
      else if isLineBreak c then readRest mark .inside cs
      else put (readable c) (readRest mark .inside cs)
  | .hex digits value, c :: cs =>
    match hexValue? c, decide (digits < 6) with
    | some digit, true => readRest mark (.hex (digits + 1) (16 * value + digit)) cs
    | _, _ =>
      put (numbered value) (
        -- one blank behind the number belongs to it
        if c = '\r' then readRest mark .afterReturn cs
        else if isSpace c then readRest mark .inside cs
        else readChar mark c cs fun place => readRest mark place cs)
  | .afterReturn, c :: cs =>
    if c = '\n' then readRest mark .inside cs
    else readChar mark c cs fun place => readRest mark place cs

/-- The value of the string at the front of a text, and the text behind it. -/
def read : List Char → Option (List Char × List Char)
  | [] => none
  | c :: cs => if c = '"' ∨ c = '\'' then readRest c .inside cs else none

/-- Escapes are read as the characters that they stand for. -/
example : read "\"A\\a B\\\"\\26\r\nC\" d".toList = some ("A\nB\"&C".toList, " d".toList) := by
  decide +kernel

/-! ### Escaped texts -/

variable {c : Char} {cs : List Char}

/-- An escaped character is read as itself. -/
theorem readRest_escapeChar (hc : isLineBreak c = false) (cs : List Char) :
    readRest '"' .inside (escapeChar c ++ cs) = put (readable c) (readRest '"' .inside cs) := by
  unfold escapeChar
  split
  · rename_i hmark
    rcases hmark with rfl | rfl <;> rfl
  · rename_i hplain
    rw [not_or] at hplain
    rw [List.singleton_append, readRest, readChar, if_neg hplain.2, if_neg (by simp [hc]),
      if_neg hplain.1]

/-- A line break is not escaped, and it is the end of the string. -/
theorem readRest_escapeChar_eq_none (hc : isLineBreak c = true) (cs : List Char) :
    readRest '"' .inside (escapeChar c ++ cs) = none := by
  have hplain : c ≠ '\\' ∧ c ≠ '"' := by
    constructor <;> (rintro rfl; exact absurd hc (by decide))
  rw [escapeChar, if_neg (by simp [hplain]), List.singleton_append, readRest, readChar,
    if_neg hplain.2, if_pos hc]

/-- An escaped text on one line is read as itself, up to the mark that follows it. -/
theorem readRest_escaped (h : Unbroken cs) (rest : List Char) :
    readRest '"' .inside (cs.flatMap escapeChar ++ '"' :: rest)
      = some (cs.map readable, rest) := by
  induction cs with
  | nil => rfl
  | cons c cs ih =>
    obtain ⟨hc, hcs⟩ := List.forall_mem_cons.mp h
    rw [List.flatMap_cons, List.append_assoc, readRest_escapeChar hc, ih hcs]
    rfl

/-- An escaped text with a line break is a bad string. -/
theorem readRest_escaped_eq_none (h : ¬ Unbroken cs) (rest : List Char) :
    readRest '"' .inside (cs.flatMap escapeChar ++ rest) = none := by
  induction cs with
  | nil => exact absurd (List.forall_mem_nil _) h
  | cons c cs ih =>
    rw [List.flatMap_cons, List.append_assoc]
    cases hc : isLineBreak c with
    | true => exact readRest_escapeChar_eq_none hc _
    | false =>
      have hcs : ¬ Unbroken cs := fun hcs => h (List.forall_mem_cons.mpr ⟨hc, hcs⟩)
      rw [readRest_escapeChar hc, ih hcs]
      rfl

/-! ### Families -/

/-- The families that are written behind the one that is named. -/
def fallback : List Char := ", system-ui, -apple-system, sans-serif".toList

theorem toList_family (name : Json) :
    (family name).toList = '"' :: (name.shown.flatMap escapeChar ++ '"' :: fallback) := by
  rw [family, String.toList_ofList, Typography.quoted_eq, List.cons_append, List.append_assoc]
  rfl

theorem read_family (name : Json) :
    read (family name).toList
      = if Unbroken name.shown then some (name.shown.map readable, fallback) else none := by
  rw [toList_family]
  show readRest '"' .inside (name.shown.flatMap escapeChar ++ '"' :: fallback) = _
  split
  · rename_i h
    exact readRest_escaped h fallback
  · rename_i h
    exact readRest_escaped_eq_none h ('"' :: fallback)

theorem map_readable_eq_self_iff : cs.map readable = cs ↔ '\x00' ∉ cs := by
  induction cs with
  | nil => simp
  | cons c cs ih =>
    have hc : readable c = c ↔ '\x00' ≠ c := by
      unfold readable
      split
      · rename_i hzero
        simp [hzero, replacement]
      · rename_i hzero
        simpa using Ne.symm hzero
    rw [List.map_cons, List.cons.injEq, hc, ih, List.mem_cons, not_or]

/-- The family of a text is a string with the name of the family as its value, in front of the other
families, exactly if there is no line break in the name.  The character zero is in no string. -/
theorem read_family_iff (name : String) :
    ((family (.str name)).toList.head? = some '"'
        ∧ read (family (.str name)).toList = some (name.toList, fallback))
      ↔ Unbroken name.toList ∧ '\x00' ∉ name.toList := by
  have hfirst : (family (.str name)).toList.head? = some '"' := by
    rw [toList_family]
    rfl
  rw [and_iff_right hfirst, read_family, Json.shown, ← map_readable_eq_self_iff]
  split
  · rename_i h
    simp [h]
  · rename_i h
    simp [h]

/-- A line break in a name ends the string before the name does. -/
theorem read_family_brokenName :
    ¬ ((family (.str "A\nB")).toList.head? = some '"'
      ∧ read (family (.str "A\nB")).toList = some ("A\nB".toList, fallback)) := by
  rw [read_family]
  decide +kernel

end FrameExport.StringToken
