import FrameExport.Decimal.Shortest
import FrameExport.Double.Arithmetic

/-!
# How doubles are written

Three forms of a double.  `write words` is the form of data files and messages: the shortest digits,
positional from `1e-4` up to below `1e16` and scientific elsewhere, always with a point or an
exponent.  `writePlain` is the form of style sheets: exact digits for a whole number, the shortest
digits otherwise, and never an exponent.  `writeFixed places` has a fixed number of places, rounded
from the exact value with ties to even.
-/

namespace FrameExport

/-- The words for the values that have no digits. -/
structure NumberWords where
  nan : List Char
  infinity : List Char

namespace NumberWords

/-- The words of data files. -/
def data : NumberWords := ⟨"NaN".toList, "Infinity".toList⟩

/-- The words of messages and style sheets. -/
def short : NumberWords := ⟨"nan".toList, "inf".toList⟩

end NumberWords

/-- The sign in front of a magnitude. -/
def signed (negative : Bool) (magnitude : List Char) : List Char :=
  if negative then '-' :: magnitude else magnitude

namespace Decimal

/-- Positional digits with a point when the decimal exponent is at least -4 and below 16, scientific
digits otherwise. -/
def written (d : Decimal) : List Char :=
  if d.point ≤ -4 ∨ 16 < d.point then d.scientific else d.positional ".0".toList

end Decimal

namespace Double

/-- The shortest digits that read back, with a point or an exponent. -/
def write (words : NumberWords) : Double → List Char
  | .nan => words.nan
  | .infinite s => signed s words.infinity
  | .finite s r => signed s (shortest r).written

/-- The digits without exponent: exact for a whole number, whose zero has no sign, and the shortest
that read back otherwise. -/
def writePlain (x : Double) : List Char :=
  match x.integer?, x with
  | some n, _ => intDigits n
  | none, .nan => NumberWords.short.nan
  | none, .infinite s => signed s NumberWords.short.infinity
  | none, .finite s r => signed s ((shortest r).positional [])

/-- A fixed number of places, rounded to nearest from the exact value with ties to even; the sign is
kept even when all digits are zero. -/
def writeFixed (places : Nat) : Double → List Char
  | .nan => NumberWords.short.nan
  | .infinite s => signed s NumberWords.short.infinity
  | .finite s r =>
    let n := roundDiv (unitsOfRank r * Nat.pow 10 places) unitsPerOne
    let fraction := digitsOf (n % Nat.pow 10 places)
    signed s (digitsOf (n / Nat.pow 10 places)
      ++ '.' :: (List.replicate (places - fraction.length) '0' ++ fraction))

end Double

end FrameExport
