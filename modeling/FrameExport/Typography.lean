import FrameExport.Json.Literal
import FrameExport.Stylesheet.Declaration

/-!
# Typography

The typography of a text is an object of the design file whose values nobody has checked; a value
that counts as absent says nothing.  `Typography.declarations` is what the class of the text says.
Size, weight, line height and spacing are said once more on the text itself, by `Typography.metrics`;
they are the same in both places (`declarations_eq_metrics`).

The family is written as a quoted string of a style sheet, in which the quotation mark and the
backslash are escaped by a backslash.  The one is escaped after the other; as the backslash comes
first, this escapes each character of the text by itself (`quoted_eq`).
-/

namespace FrameExport.Typography

/-- A value as a length in pixels. -/
def pixels (v : Json) : String := String.ofList (v.styled ++ "px".toList)

/-- A declaration made from a field, if the field is there. -/
def declare (property : String) (value : Json → String) (v : Json) : List Declaration :=
  if v.isTruthy then [⟨property, value v⟩] else []

/-- A text with a backslash in front of every mark of one kind. -/
def escapeMark (mark : Char) (cs : List Char) : List Char :=
  cs.flatMap fun c => if c = mark then ['\\', c] else [c]

/-- A text as a quoted string. -/
def quoted (cs : List Char) : List Char := '"' :: (escapeMark '"' (escapeMark '\\' cs) ++ ['"'])

/-- A character of a quoted string. -/
def escapeChar (c : Char) : List Char := if c = '\\' ∨ c = '"' then ['\\', c] else [c]

/-- The two marks can be escaped one after the other, if the backslash comes first: the backslashes
in front of quotation marks are not escaped again. -/
theorem escapeMark_escapeMark (cs : List Char) :
    escapeMark '"' (escapeMark '\\' cs) = cs.flatMap escapeChar := by
  rw [escapeMark, escapeMark, List.flatMap_assoc]
  congr 1
  funext c
  rw [escapeChar]
  by_cases hback : c = '\\'
  · subst hback
    rfl
  by_cases hquote : c = '"'
  · subst hquote
    rfl
  · simp [hback, hquote]

theorem quoted_eq (cs : List Char) : quoted cs = '"' :: (cs.flatMap escapeChar ++ ['"']) := by
  rw [quoted, escapeMark_escapeMark]

/-- The families to use: the one that is named, and then those of the system. -/
def family (name : Json) : String :=
  String.ofList (quoted name.shown ++ ", system-ui, -apple-system, sans-serif".toList)

/-- The alignment that a value names; anything else is to the left. -/
def alignment (v : Json) : String :=
  if v.isText "RIGHT" then "right"
  else if v.isText "CENTER" then "center"
  else if v.isText "JUSTIFIED" then "justify"
  else "left"

/-- The capitals that a text is set in. -/
def capitals (v : Json) : List Declaration :=
  if v.isText "UPPER" then [⟨"text-transform", "uppercase"⟩] else []

/-- What the class of a text says. -/
def declarations (style : Fields) : List Declaration :=
  declare "font-family" family (style.get "fontFamily")
    ++ declare "font-size" pixels (style.get "fontSize")
    ++ declare "font-weight" (fun v => String.ofList v.styled) (style.get "fontWeight")
    ++ declare "line-height" pixels (style.get "lineHeightPx")
    ++ declare "letter-spacing" pixels (style.get "letterSpacing")
    ++ declare "text-align" alignment (style.get "textAlignHorizontal")
    ++ capitals (style.get "textCase")

/-- Size, weight, line height and spacing, as they stand on the text itself. -/
def metrics (style : Fields) : List Declaration :=
  declare "font-size" pixels (style.get "fontSize")
    ++ declare "font-weight" (fun v => String.ofList v.styled) (style.get "fontWeight")
    ++ declare "line-height" pixels (style.get "lineHeightPx")
    ++ declare "letter-spacing" pixels (style.get "letterSpacing")

/-- The class of a text says its metrics in the way in which the text itself does. -/
theorem declarations_eq_metrics (style : Fields) :
    declarations style
      = declare "font-family" family (style.get "fontFamily") ++ metrics style
        ++ declare "text-align" alignment (style.get "textAlignHorizontal")
        ++ capitals (style.get "textCase") := by
  simp only [declarations, metrics, List.append_assoc]

end FrameExport.Typography
