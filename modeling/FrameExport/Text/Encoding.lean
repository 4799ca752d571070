import FrameExport.Text.Scalar

/-!
# Encodings of texts

Text that comes as bytes is in UTF-8, UTF-16 or UTF-32.  Its first two characters are taken to be
ASCII, as those of a data file are, so the zeros among the first bytes tell which it is.
`Text.decode` reads the bytes in the encoding that `Encoding.ofBytes` finds.

Half a surrogate pair on its own reads as the replacement character (see `Text.charOf`).
-/

namespace FrameExport.Text

/-- How characters stand as bytes. -/
inductive Encoding where
  | utf8
  | utf16 (bigEndian : Bool)
  | utf32 (bigEndian : Bool)
deriving DecidableEq, Repr

/-- The encoding of bytes that begin with two ASCII characters, or consist of one. -/
def Encoding.ofBytes : List UInt8 → Encoding
  | [0, _] => .utf16 true
  | [_, 0] => .utf16 false
  | 0 :: 0 :: _ :: _ :: _ => .utf32 true
  | 0 :: _ :: _ :: _ :: _ => .utf16 true
  | _ :: 0 :: 0 :: 0 :: _ => .utf32 false
  | _ :: 0 :: _ :: _ :: _ => .utf16 false
  | _ => .utf8

/-- The number that bytes denote, the most or the least significant one in front. -/
def number (bigEndian : Bool) (bytes : List UInt8) : Nat :=
  (if bigEndian then bytes else bytes.reverse).foldl (fun n b => 256 * n + b.toNat) 0

/-! ### UTF-16 -/

/-- The units of two bytes each; bytes of an odd number make none. -/
def pairs? (bigEndian : Bool) : List UInt8 → Option (List Nat)
  | [] => some []
  | a :: b :: rest => do
    return number bigEndian [a, b] :: (← pairs? bigEndian rest)
  | _ => none

/-- The characters of units; a high surrogate and a low one make one character. -/
def charsOfUnits : List Nat → List Char
  | [] => []
  | [n] => [charOf n]
  | high :: low :: rest =>
    if isHighSurrogate high && isLowSurrogate low then charOfPair high low :: charsOfUnits rest
    else charOf high :: charsOfUnits (low :: rest)

/-! ### UTF-32 -/

/-- The characters of four bytes each; none are made if bytes are left over or a number is beyond
every character. -/
def quads? (bigEndian : Bool) : List UInt8 → Option (List Char)
  | [] => some []
  | a :: b :: c :: d :: rest => do
    let n := number bigEndian [a, b, c, d]
    if n < 0x110000 then return charOf n :: (← quads? bigEndian rest) else none
  | _ => none

/-! ### Bytes -/

/-- The text that bytes hold, if they hold one. -/
def decode (bytes : ByteArray) : Option String :=
  match Encoding.ofBytes bytes.toList with
  | .utf8 => String.fromUTF8? bytes
  | .utf16 bigEndian =>
    (pairs? bigEndian bytes.toList).map fun us => String.ofList (charsOfUnits us)
  | .utf32 bigEndian => (quads? bigEndian bytes.toList).map String.ofList

end FrameExport.Text
