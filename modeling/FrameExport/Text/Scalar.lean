/-!
# Characters by number

A character is a number below 0x110000 outside the range of surrogates.  Numbers of that range stand
for characters beyond 0xFFFF in pairs of a high and a low one; alone they stand for none.  A `String`
has no place for them, unlike a `RawText`: where half a pair is read, the replacement character takes
its place, so what is said of texts that were read holds of those in which halves come in pairs.
-/

namespace FrameExport.Text

/-- The character that stands where no character could be read. -/
def replacement : Char := Char.ofNat 0xFFFD

/-- Whether a number is the first of a surrogate pair. -/
def isHighSurrogate (n : Nat) : Bool := 0xD800 ≤ n && n < 0xDC00

/-- Whether a number is the second of a surrogate pair. -/
def isLowSurrogate (n : Nat) : Bool := 0xDC00 ≤ n && n < 0xE000

/-- The character with a number. -/
def charOf (n : Nat) : Char :=
  if isHighSurrogate n || isLowSurrogate n then replacement else Char.ofNat n

/-- The character for a surrogate pair. -/
def charOfPair (high low : Nat) : Char :=
  Char.ofNat (0x10000 + (high - 0xD800) * 0x400 + (low - 0xDC00))

end FrameExport.Text
