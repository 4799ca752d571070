import FrameExport.Decimal.Written
import FrameExport.Json.Basic

/-!
# Writing JSON

`Json.inline comma colon` writes a value on one line with the given separators, `Json.indented` over
several lines with two spaces to a level.  Both keep the order of fields, leave all characters but
the quotation mark, the backslash and the controls below U+0020 as they are, and write doubles with
the shortest digits that read back.

`Json.canonical` is the inline form without spaces of the value with sorted fields: a name for the
value up to the order of fields.
-/

namespace FrameExport.Json

/-- The lower-case hexadecimal digits of a number, at least `width` of them. -/
def hexDigits (width n : Nat) : List Char :=
  let digits := Nat.toDigits 16 n
  List.replicate (width - digits.length) '0' ++ digits

/-- A character as it stands between quotation marks. -/
def escapeChar (c : Char) : List Char :=
  if c = '"' then ['\\', '"']
  else if c = '\\' then ['\\', '\\']
  else if c = '\n' then ['\\', 'n']
  else if c = '\r' then ['\\', 'r']
  else if c = '\t' then ['\\', 't']
  else if c.toNat = 0x08 then ['\\', 'b']
  else if c.toNat = 0x0C then ['\\', 'f']
  else if c.toNat < 0x20 then '\\' :: 'u' :: hexDigits 4 c.toNat
  else [c]

/-- A text between quotation marks. -/
def quoted (s : String) : List Char := '"' :: (s.toList.flatMap escapeChar ++ ['"'])

mutual

/-- A value on one line, with `comma` between the members and `colon` after each key. -/
def inline (comma colon : List Char) : Json → List Char
  | .null => "null".toList
  | .bool b => if b then "true".toList else "false".toList
  | .int n => intDigits n
  | .double x => x.write .data
  | .str s => quoted s
  | .arr items => '[' :: (inlineItems comma colon items ++ [']'])
  | .obj fields => '{' :: (inlineFields comma colon fields ++ ['}'])

/-- The items of an array without its brackets. -/
def inlineItems (comma colon : List Char) : List Json → List Char
  | [] => []
  | [v] => v.inline comma colon
  | v :: w :: rest => v.inline comma colon ++ (comma ++ inlineItems comma colon (w :: rest))

/-- The fields of an object without its braces. -/
def inlineFields (comma colon : List Char) : List (String × Json) → List Char
  | [] => []
  | [(k, v)] => quoted k ++ (colon ++ v.inline comma colon)
  | (k, v) :: f :: rest =>
    quoted k ++ (colon ++ (v.inline comma colon ++ (comma ++ inlineFields comma colon (f :: rest))))

end

/-- The start of a line at a level of nesting. -/
def lineStart (level : Nat) : List Char := '\n' :: List.replicate (2 * level) ' '

mutual

/-- A value over several lines, its members standing one level deeper than itself; an empty array or
object stays on its line. -/
def indented (level : Nat) : Json → List Char
  | .null => "null".toList
  | .bool b => if b then "true".toList else "false".toList
  | .int n => intDigits n
  | .double x => x.write .data
  | .str s => quoted s
  | .arr [] => ['[', ']']
  | .arr (v :: rest) => '[' :: (indentedItems (level + 1) (v :: rest) ++ (lineStart level ++ [']']))
  | .obj [] => ['{', '}']
  | .obj (f :: rest) =>
    '{' :: (indentedFields (level + 1) (f :: rest) ++ (lineStart level ++ ['}']))

/-- The items of an array, each on a line of its own. -/
def indentedItems (level : Nat) : List Json → List Char
  | [] => []
  | [v] => lineStart level ++ v.indented level
  | v :: w :: rest =>
    lineStart level ++ (v.indented level ++ (',' :: indentedItems level (w :: rest)))

/-- The fields of an object, each on a line of its own. -/
def indentedFields (level : Nat) : List (String × Json) → List Char
  | [] => []
  | [(k, v)] => lineStart level ++ (quoted k ++ (':' :: ' ' :: v.indented level))
  | (k, v) :: f :: rest =>
    lineStart level ++ (quoted k ++
      (':' :: ' ' :: (v.indented level ++ (',' :: indentedFields level (f :: rest)))))

end

/-- The value on one line without spaces and with sorted fields: equal for two values exactly when
they differ at most in the order of fields. -/
def canonical (v : Json) : String := String.ofList (v.sorted.inline [','] [':'])

/-- The value on one line with a space after each comma and colon. -/
def spaced (v : Json) : String := String.ofList (v.inline [',', ' '] [':', ' '])

/-- The value over several lines. -/
def pretty (v : Json) : String := String.ofList (v.indented 0)

end FrameExport.Json
