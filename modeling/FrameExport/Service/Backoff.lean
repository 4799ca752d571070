import FrameExport.Json.Number

/-!
# Pauses between requests

The pause after the first attempt is the base; each further pause is twice as long.  A random draw
between zero and one moves a pause by up to an eighth of it either way, and no pause is negative.

The base is a value that nobody has checked.  An integer is doubled exactly, a truth value counts as
one or zero, and what is no number is a fault; so is a pause beyond every double.
-/

namespace FrameExport

namespace Backoff

/-- One quarter. -/
def quarter : Double := .ofUnits false Double.unitsPerOne 4

/-- The base doubled a number of times. -/
def doubled (base : Json) (times : Nat) : Except Fault Double :=
  match base with
  | .int n => Json.doubleOfInt (n * (Nat.pow 2 times : Nat))
  | .bool b => Json.doubleOfInt (if b then (Nat.pow 2 times : Nat) else 0)
  | .double x => do return x * (← Json.doubleOfInt (Nat.pow 2 times : Nat))
  | v => .error (.notMultiplied v.kind)

/-- The pause after an attempt, the first attempt having number one. -/
def pause (base : Json) (attempt : Nat) (draw : Double) : Except Fault Double := do
  let t ← doubled base (attempt - 1)
  return (t + t * quarter * (draw - .half)).clampBelowZero

end Backoff

end FrameExport
