import FrameExport.Paint
import FrameExport.Style.Registry
import FrameExport.Typography

/-!
# The style sheet of a design

A `Stylesheet` has a rule for every registered style, after the global rules that every design has.
Text styles come first, then fills, then strokes, each kind in the order of registration.

`Stylesheet.ofRegistry` looks at paints that nobody has checked, so it can fault.
-/

namespace FrameExport

/-- The rules for the styles of a design. -/
structure Stylesheet where
  rules : List Rule
deriving DecidableEq, Repr

namespace Stylesheet

/-! ### Global rules -/

/-- The rules that every style sheet begins with. -/
def globalRules : List Rule := [
  ⟨"*", [⟨"box-sizing", "border-box"⟩]⟩,
  ⟨"html, body", [⟨"margin", "0"⟩, ⟨"padding", "0"⟩]⟩,
  ⟨"body", [
    ⟨"font-family",
      "system-ui, -apple-system, BlinkMacSystemFont, \"SF Pro Text\", sans-serif"⟩,
    ⟨"background", "#111111"⟩,
    ⟨"display", "flex"⟩,
    ⟨"align-items", "center"⟩,
    ⟨"justify-content", "center"⟩,
    ⟨"min-height", "100vh"⟩]⟩,
  ⟨".page", [⟨"position", "relative"⟩]⟩,
  ⟨".node", [⟨"position", "absolute"⟩, ⟨"overflow", "hidden"⟩]⟩]

/-! ### Rules of styles -/

/-- How an area is filled: by the gradient of the paint, or else by its colour. -/
def fillDeclaration (paint : Json) : Except Fault Declaration := do
  match ← Paint.gradient paint with
  | some gradient => return ⟨"background", gradient.text⟩
  | none => return ⟨"background-color", (← Paint.color paint).text⟩

/-- How an area is outlined. -/
def strokeDeclaration (paint weight : Json) : Except Fault Declaration := do
  return ⟨"border", Typography.pixels weight ++ " solid " ++ (← Paint.color paint).text⟩

/-- The rule for the class of a style. -/
def classRule (entry : StyleEntry) (declarations : List Declaration) : Rule :=
  ⟨"." ++ entry.className, declarations⟩

/-- The rule of a text style, which must be an object. -/
def textRule (entry : StyleEntry) : Except Fault Rule :=
  match entry.payload with
  | .obj style => .ok (classRule entry (Typography.declarations style))
  | v => .error (.noAttribute v.kind "get")

/-- The rule of a fill. -/
def fillRule (entry : StyleEntry) : Except Fault Rule := do
  return classRule entry [← fillDeclaration entry.payload]

/-- The rule of a stroke. -/
def strokeRule (entry : StyleEntry) : Except Fault Rule := do
  return classRule entry [← strokeDeclaration entry.payload entry.weight]

/-- The style sheet of the registered styles. -/
def ofRegistry (registry : StyleRegistry) : Except Fault Stylesheet := do
  let texts ← registry.texts.entries.mapM textRule
  let fills ← registry.fills.entries.mapM fillRule
  let strokes ← registry.strokes.entries.mapM strokeRule
  return ⟨texts ++ fills ++ strokes⟩

/-! ### The text -/

/-- The global rules on lines that follow each other. -/
def globalText : List Char := ['\n'].intercalate (globalRules.map Rule.write)

/-- The global rules, and after them every other rule behind an empty line. -/
def write (sheet : Stylesheet) : List Char :=
  globalText ++ sheet.rules.flatMap (fun rule => '\n' :: '\n' :: rule.write) ++ ['\n']

/-- The text of the style sheet. -/
def text (sheet : Stylesheet) : String := String.ofList sheet.write

end Stylesheet

end FrameExport
