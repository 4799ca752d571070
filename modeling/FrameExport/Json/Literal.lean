import FrameExport.Json.Writer
import FrameExport.Text.Graphic

/-!
# Values inside running text

Where a value that is no number stands in a style sheet or a message, it is shown in literal form:
`None`, `True` and `False` for the constants, texts in quotes, arrays and objects with their
members.  `Json.literal` shows every value so; `Json.shown` leaves a text that stands on its own as
it is.
-/

namespace FrameExport

namespace Text

/-- A character as it stands between the given quotes: the quote, the backslash and characters that
are not graphic are written as escapes. -/
def literalChar (quote c : Char) : List Char :=
  if c = quote ∨ c = '\\' then ['\\', c]
  else if c = '\n' then ['\\', 'n']
  else if c = '\r' then ['\\', 'r']
  else if c = '\t' then ['\\', 't']
  else if isGraphic c then [c]
  else if c.toNat < 0x100 then '\\' :: 'x' :: Json.hexDigits 2 c.toNat
  else if c.toNat < 0x10000 then '\\' :: 'u' :: Json.hexDigits 4 c.toNat
  else '\\' :: 'U' :: Json.hexDigits 8 c.toNat

/-- The quote for a text: the apostrophe, unless the text has apostrophes and no quotation mark. -/
def literalQuote (cs : List Char) : Char :=
  if cs.contains '\'' && !cs.contains '"' then '"' else '\''

/-- A text in quotes. -/
def literal (s : String) : List Char :=
  let quote := literalQuote s.toList
  quote :: (s.toList.flatMap (literalChar quote) ++ [quote])

end Text

namespace Json

mutual

/-- A value in literal form. -/
def literal : Json → List Char
  | .null => "None".toList
  | .bool b => if b then "True".toList else "False".toList
  | .int n => intDigits n
  | .double x => x.write .short
  | .str s => Text.literal s
  | .arr items => '[' :: (literalItems items ++ [']'])
  | .obj fields => '{' :: (literalFields fields ++ ['}'])

/-- The items of an array without its brackets. -/
def literalItems : List Json → List Char
  | [] => []
  | [v] => v.literal
  | v :: w :: rest => v.literal ++ (',' :: ' ' :: literalItems (w :: rest))

/-- The fields of an object without its braces. -/
def literalFields : List (String × Json) → List Char
  | [] => []
  | [(k, v)] => Text.literal k ++ (':' :: ' ' :: v.literal)
  | (k, v) :: f :: rest =>
    Text.literal k ++ (':' :: ' ' :: (v.literal ++ (',' :: ' ' :: literalFields (f :: rest))))

end

/-- A value as running text shows it: a text as it is, any other value in literal form. -/
def shown : Json → List Char
  | .str s => s.toList
  | v => v.literal

/-- A value as a style sheet shows it: numbers without exponent, truth values in lower case, and
everything else as running text. -/
def styled : Json → List Char
  | .bool b => if b then "true".toList else "false".toList
  | .int n => intDigits n
  | .double x => x.writePlain
  | v => v.shown

end Json

end FrameExport
