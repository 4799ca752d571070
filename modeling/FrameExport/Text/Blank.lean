/-!
# White space

Two classes of characters.  `isWhiteSpace` is the Unicode property White_Space; `isBlank` adds the
four information separators U+001C to U+001F.  `trim p` removes the characters of a class from both
ends of a text.
-/

namespace FrameExport.Text

/-- The Unicode property White_Space. -/
def isWhiteSpace (c : Char) : Bool :=
  let n := c.toNat
  (0x09 ≤ n && n ≤ 0x0D) || n == 0x20 || n == 0x85 || n == 0xA0 || n == 0x1680
    || (0x2000 ≤ n && n ≤ 0x200A) || n == 0x2028 || n == 0x2029 || n == 0x202F || n == 0x205F
    || n == 0x3000

/-- White space or an information separator. -/
def isBlank (c : Char) : Bool := isWhiteSpace c || (0x1C ≤ c.toNat && c.toNat ≤ 0x1F)

/-- The text without the characters of a class at its two ends. -/
def trim (p : Char → Bool) (cs : List Char) : List Char :=
  ((cs.dropWhile p).reverse.dropWhile p).reverse

/-- A text that neither begins nor ends with a character of the class is left alone. -/
theorem trim_eq_self {p : Char → Bool} {cs : List Char} (head : cs.dropWhile p = cs)
    (last : cs.reverse.dropWhile p = cs.reverse) : trim p cs = cs := by
  simp [trim, head, last]

end FrameExport.Text
