/-!
# Texts that may not be encodable

A text is a row of code points, and the halves of surrogate pairs are code points too.  UTF-8 has no
bytes for a half, so a text that holds one cannot be written into a file (`RawText.encode?`).  A
`String` consists of characters only and can always be written.
-/

namespace FrameExport

/-- One code point of a text. -/
inductive CodePoint where
  | char (c : Char)
  /-- Half of a surrogate pair, counted from 0xD800 on. -/
  | half (n : Fin 0x800)
deriving DecidableEq, Repr

/-- The character that a code point is, if it is one. -/
def CodePoint.char? : CodePoint → Option Char
  | .char c => some c
  | .half _ => none

/-- A text in which halves of surrogate pairs may stand. -/
structure RawText where
  points : List CodePoint
deriving DecidableEq, Repr

namespace RawText

/-- A text of characters only. -/
def ofString (s : String) : RawText := ⟨s.toList.map .char⟩

instance : Coe String RawText := ⟨ofString⟩

/-- The bytes of a text in UTF-8, if it consists of characters only. -/
def encode? (text : RawText) : Option ByteArray := do
  return (String.ofList (← text.points.mapM CodePoint.char?)).toUTF8

end RawText

end FrameExport
