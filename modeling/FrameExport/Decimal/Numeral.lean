import FrameExport.Decimal.Basic
import FrameExport.Text.Blank
import FrameExport.Text.Digit

/-!
# Numerals

A numeral is an optional sign followed by a word for infinity or NaN in any case, or by digits with
at most one point among or beside them and an optional exponent.  `Numeral.read` gives the nearest
double; a numeral too large for the format is infinite.

Two dialects differ in the digits and in the low lines that may group them.  `readText` accepts the
decimal digits of every script, and a single low line between two digits.  `readField` accepts ASCII
digits, and single low lines everywhere but at the ends, yet only in a text without white space
around it.
-/

namespace FrameExport.Numeral

/-! ### Low lines -/

/-- The text without its low lines, each of which must stand between two digits; `previous` is the
character in front. -/
def dropGrouping (previous : Char) : List Char → Option (List Char)
  | [] => if previous = '_' then none else some []
  | c :: cs =>
    if c = '_' then
      if previous.isDigit then dropGrouping c cs else none
    else if previous = '_' && !c.isDigit then none
    else (dropGrouping c cs).map (c :: ·)

/-- The text without its low lines, each of which must stand between two other characters;
`previous` is the character in front. -/
def dropSeparators (previous : Char) : List Char → Option (List Char)
  | [] => if previous = '_' then none else some []
  | c :: cs =>
    if c = '_' then
      if previous = '_' then none else dropSeparators c cs
    else (dropSeparators c cs).map (c :: ·)

/-! ### Numerals -/

/-- The optional sign at the front, and the rest. -/
def splitSign : List Char → Bool × List Char
  | '-' :: cs => (true, cs)
  | '+' :: cs => (false, cs)
  | cs => (false, cs)

/-- The value of the exponent part that ends a numeral; an absent one is zero. -/
def exponent? : List Char → Option Int
  | [] => some 0
  | c :: cs =>
    if c = 'e' ∨ c = 'E' then
      let (negative, digits) := splitSign cs
      if digits.isEmpty || !digits.all Char.isDigit then none
      else
        let n : Int := digitsValue 0 digits
        some (if negative then -n else n)
    else none

/-- Digits with an optional point and exponent, as a decimal. -/
def decimal? (cs : List Char) : Option Decimal :=
  let whole := cs.takeWhile Char.isDigit
  let rest := cs.dropWhile Char.isDigit
  let (fraction, rest) := match rest with
    | '.' :: more => (more.takeWhile Char.isDigit, more.dropWhile Char.isDigit)
    | _ => ([], rest)
  if whole.isEmpty && fraction.isEmpty then none
  else (exponent? rest).map fun e =>
    ⟨digitsValue (digitsValue 0 whole) fraction, e - fraction.length⟩

/-- The double nearest to a numeral; nothing for any other text. -/
def read (cs : List Char) : Option Double :=
  let (negative, magnitude) := splitSign cs
  let word := Text.asciiLower magnitude
  if word = "nan".toList then some .nan
  else if word = "inf".toList ∨ word = "infinity".toList then some (.infinite negative)
  else (decimal? magnitude).map (·.toDouble negative)

/-- A numeral in ASCII digits: one with white space around it, or one with separators in it. -/
def readField (s : String) : Option Double :=
  (read (Text.trim Text.isWhiteSpace s.toList)).or
    ((dropSeparators '_' s.toList).bind read)

/-- A numeral in the digits of any script, which may be grouped, with white space around it. -/
def readText (s : String) : Option Double :=
  (dropGrouping ' ' (Text.asciiDigits (Text.trim Text.isWhiteSpace s.toList))).bind read

end FrameExport.Numeral
