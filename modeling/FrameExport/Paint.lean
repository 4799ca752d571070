import FrameExport.Decimal.Written
import FrameExport.Json.Number

/-!
# Paints

A paint is an object of the design file that says how an area is filled or outlined.  Its fields are
not checked when the file is read, so looking at them can fault.

`Paint.firstVisible` picks the paint that counts.  `Paint.color` reads a solid paint as a `Color`
and `Paint.gradient` a linear or radial one as a `Gradient`; both are data, and their `text` is what
a style sheet says.
-/

namespace FrameExport

/-- A colour: nothing at all, or three channels with an opacity. -/
inductive Color where
  | transparent
  | rgba (red green blue : Int) (alpha : Double)
deriving DecidableEq, Repr

/-- The colour in the notation of style sheets, its opacity with three places. -/
def Color.text : Color → String
  | .transparent => "transparent"
  | .rgba r g b a =>
    "rgba(" ++ String.ofList (intDigits r) ++ "," ++ String.ofList (intDigits g) ++ ","
      ++ String.ofList (intDigits b) ++ "," ++ String.ofList (a.writeFixed 3) ++ ")"

/-- How a gradient spreads. -/
inductive GradientShape where
  | linear
  | radial
deriving DecidableEq, Repr

/-- A colour at a position in percent. -/
structure GradientStop where
  color : Color
  percent : Int
deriving DecidableEq, Repr

/-- The stop in the notation of style sheets. -/
def GradientStop.text (stop : GradientStop) : String :=
  stop.color.text ++ " " ++ String.ofList (intDigits stop.percent) ++ "%"

/-- Colours that pass into each other along a line or from a centre. -/
structure Gradient where
  shape : GradientShape
  stops : List GradientStop
deriving DecidableEq, Repr

/-- The gradient in the notation of style sheets; a linear one always runs to the right. -/
def Gradient.text (g : Gradient) : String :=
  (match g.shape with
    | .linear => "linear-gradient(90deg, "
    | .radial => "radial-gradient(circle, ")
  ++ ", ".intercalate (g.stops.map GradientStop.text) ++ ")"

namespace Paint

/-- Whether a paint is shown: only the truth value false in its field `visible` hides it. -/
def isVisible (paint : Fields) : Bool := !(paint.get "visible").isFalse

/-- The first paint that is shown. -/
def firstVisible (paints : List Fields) : Option Fields := paints.find? isVisible

/-- The first shown paint among the values that a walk through a value meets. -/
def firstVisibleIn (v : Json) : Except Fault (Option Fields) :=
  v.walk.map fun items => firstVisible (items.filterMap Json.fields?)

/-! ### Solid paints -/

/-- A colour channel out of 255: its share, which counts as zero when it is no number, times 255. -/
def channel (share : Json) : Except Fault Int := do
  ((← share.toDouble?).getD .zero * .ofNat 255).halfUp

/-- The first of the two that is a number, or else one. -/
def alpha (own inColor : Json) : Except Fault Double := do
  match ← own.toDouble? with
  | some a => return a
  | none => return (← inColor.toDouble?).getD .one

/-- The colour with the given channels; `opacity` goes before the one that the colour has itself. -/
def solid (color : Fields) (opacity : Json) : Except Fault Color := do
  let a ← alpha opacity (color.get "a")
  let r ← channel (color.get "r")
  let g ← channel (color.get "g")
  let b ← channel (color.get "b")
  return .rgba r g b a

/-- Whether a paint is a solid one. -/
def isSolid (paint : Fields) : Bool := (paint.get "type").isText "SOLID"

/-- The colour of a solid paint; anything else is transparent. -/
def color (paint : Json) : Except Fault Color :=
  match paint.fields? with
  | some fields =>
    if isSolid fields then solid (fields.get "color").fieldsOrEmpty (fields.get "opacity")
    else .ok .transparent
  | none => .ok .transparent

/-! ### Gradients -/

/-- A stop of a gradient. -/
def stop (fields : Fields) : Except Fault GradientStop := do
  let shade := (fields.get "color").fieldsOrEmpty
  let color ← solid shade (shade.get "a")
  let percent ← ((← (fields.get "position").toDouble?).getD .zero * .ofNat 100).halfUp
  return ⟨color, percent⟩

/-- The shape that the type of a paint names. -/
def shape? (type : Json) : Option GradientShape :=
  if type.isText "GRADIENT_LINEAR" then some .linear
  else if type.isText "GRADIENT_RADIAL" then some .radial
  else none

/-- The gradient of a paint with a list of stops, of which those that are no objects are left out.
The stops of every paint that has some are read, also where its type is none of a gradient. -/
def gradient (paint : Json) : Except Fault (Option Gradient) :=
  match paint.fields? with
  | none => .ok none
  | some fields =>
    match fields.get "gradientStops" with
    | .arr (first :: rest) => do
      let stops ← ((first :: rest).filterMap Json.fields?).mapM stop
      return (shape? (fields.get "type")).map (⟨·, stops⟩)
    | _ => .ok none

end Paint

end FrameExport
