import FrameExport.Double.Basic
import FrameExport.Fault

/-!
# Arithmetic of doubles

Each operation computes the exact result in units and rounds it once, to nearest with ties to even,
so the results are those of IEEE 754.  `halfUp` rounds to an integer by adding one half, in doubles,
and taking the floor.
-/

namespace FrameExport.Double

/-- The double nearest to a signed number of units; `zeroNegative` is the sign of an exact zero. -/
def ofSignedUnits (zeroNegative : Bool) (n : Int) : Double :=
  ofUnits (if n = 0 then zeroNegative else decide (n < 0)) n.natAbs 1

/-- The same magnitude with the other sign. -/
protected def neg : Double → Double
  | .nan => .nan
  | .infinite s => .infinite !s
  | .finite s r => .finite (!s) r

/-- The sum; opposite infinities have none, and an exact zero is negative only if both terms are. -/
protected def add : Double → Double → Double
  | .nan, _ => .nan
  | .infinite _, .nan => .nan
  | .infinite s, .infinite t => if s = t then .infinite s else .nan
  | .infinite s, .finite _ _ => .infinite s
  | .finite _ _, .nan => .nan
  | .finite _ _, .infinite t => .infinite t
  | .finite s a, .finite t b => ofSignedUnits (s && t) (signedUnits s a + signedUnits t b)

/-- The difference, which is the sum with the opposite. -/
protected def sub (x y : Double) : Double := Double.add x y.neg

/-- The product; zero times infinity has none. -/
protected def mul : Double → Double → Double
  | .nan, _ => .nan
  | .infinite _, .nan => .nan
  | .infinite s, .infinite t => .infinite (s != t)
  | .infinite s, .finite t b => if b.val = 0 then .nan else .infinite (s != t)
  | .finite _ _, .nan => .nan
  | .finite s a, .infinite t => if a.val = 0 then .nan else .infinite (s != t)
  | .finite s a, .finite t b => ofUnits (s != t) (unitsOfRank a * unitsOfRank b) unitsPerOne

instance : Neg Double := ⟨Double.neg⟩
instance : Add Double := ⟨Double.add⟩
instance : Sub Double := ⟨Double.sub⟩
instance : Mul Double := ⟨Double.mul⟩

/-- The value itself when it is above zero, and positive zero otherwise; NaN counts as not above. -/
def clampBelowZero : Double → Double
  | .infinite false => .infinite false
  | .finite false r => if r.val = 0 then zero else .finite false r
  | _ => zero

/-- The greatest integer that is not above a finite double. -/
def floor : Double → Except Fault Int
  | .nan => .error .notANumber
  | .infinite _ => .error .infinite
  | .finite s r => .ok (signedUnits s r / (unitsPerOne : Int))

/-- The nearest integer, halves going up: the floor of the sum with one half, where the sum itself
is rounded to a double. -/
def halfUp (x : Double) : Except Fault Int := (x + half).floor

/-- The integer that a finite double without fraction equals. -/
def integer? : Double → Option Int
  | .finite s r =>
    if unitsOfRank r % unitsPerOne = 0 then some (signedUnits s r / (unitsPerOne : Int)) else none
  | _ => none

end FrameExport.Double
