import FrameExport.Decimal.Numeral
import FrameExport.Double.Arithmetic
import FrameExport.Json.Basic

/-!
# Numbers out of JSON values

`Json.toDouble?` reads the double that a colour channel, an opacity or a position stands for, and
`Json.halfUp` rounds a value to an integer.  Both meet values that nobody has checked, so both can
fault.
-/

namespace FrameExport.Json

/-- An integer as a double; one beyond every double is a fault. -/
def doubleOfInt (n : Int) : Except Fault Double :=
  match Double.ofInt? n with
  | some x => .ok x
  | none => .error .tooLarge

/-- The double that a number or the text of a numeral stands for; other values stand for none, and
truth values are not numbers here. -/
def toDouble? : Json → Except Fault (Option Double)
  | .int n => (doubleOfInt n).map some
  | .double x => .ok (some x)
  | .str s => .ok (Numeral.readText s)
  | _ => .ok none

/-- The integer nearest to a number, halves going up; a truth value counts as one or zero. -/
def halfUp : Json → Except Fault Int
  | .int n => do (← doubleOfInt n).halfUp
  | .bool b => (if b then Double.one else Double.zero).halfUp
  | .double x => x.halfUp
  | v => .error (.notAdded v.kind)

end FrameExport.Json
