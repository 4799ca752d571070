import FrameExport.Rounding

/-!
# Doubles by rank

A finite double is its sign and its **rank**: how many magnitudes of finite doubles lie below its
own.  Ranks make the format canonical by construction: two doubles are equal exactly when their
constructors and arguments are, and there is one NaN.

All finite doubles are whole multiples of `2 ^ -1074`, the least positive one.  `unitsOfRank r` is
the magnitude of rank `r` counted in these units, so exact statements about doubles are statements
about natural numbers.  `nearestRank num den` rounds the quotient `num / den`, in units, to the
nearest rank, ties to even; the carry out of a binade and the passage from the subnormal to the
normal range need no case of their own, because ranks are consecutive there.
-/

namespace FrameExport

namespace Double

/-- The number of magnitudes in a binade, which is also the least significand of a normal double. -/
def binade : Nat := Nat.pow 2 52

/-- The number of finite magnitudes: 2047 binades. -/
def rankCount : Nat := 2047 * binade

end Double

/-- An IEEE 754 double: the one NaN, an infinity, or a finite value given by sign and rank. -/
inductive Double where
  | nan
  | infinite (negative : Bool)
  | finite (negative : Bool) (rank : Fin Double.rankCount)
deriving DecidableEq, Repr

namespace Double

instance : Inhabited Double := ⟨.nan⟩

/-! ### From ranks to units -/

/-- The significand of a rank: below `2 ^ 53`, and at least `2 ^ 52` outside the subnormal range. -/
def mantissa (r : Nat) : Nat := if r < binade then r else binade + r % binade

/-- The power of two, in units, that the significand of a rank is multiplied by. -/
def scale (r : Nat) : Nat := r / binade - 1

/-- The magnitude of a rank as a multiple of `2 ^ -1074`. -/
def unitsOfRank (r : Nat) : Nat := mantissa r * Nat.pow 2 (scale r)

/-- The number one, in units. -/
def unitsPerOne : Nat := Nat.pow 2 1074

/-- The value of a finite double in units, with its sign. -/
def signedUnits (negative : Bool) (r : Nat) : Int :=
  if negative then -(unitsOfRank r : Int) else (unitsOfRank r : Int)

/-! ### From units to ranks -/

/-- The rank nearest to the magnitude `num / den` units, ties to the even significand. -/
def nearestRank (num den : Nat) : Nat :=
  ((num / den).log2 - 52) * binade
    + roundDiv num (den * Nat.pow 2 ((num / den).log2 - 52))

/-- The double nearest to `num / den` units with the given sign; beyond the largest finite one it is
infinite. -/
def ofUnits (negative : Bool) (num den : Nat) : Double :=
  if h : nearestRank num den < rankCount then .finite negative ⟨nearestRank num den, h⟩
  else .infinite negative

/-- Positive zero. -/
def zero : Double := ofUnits false 0 1

/-- The number one. -/
def one : Double := ofUnits false unitsPerOne 1

/-- One half. -/
def half : Double := ofUnits false unitsPerOne 2

/-- The integer `n` as a double, or nothing when it rounds beyond the largest finite one. -/
def ofInt? (n : Int) : Option Double :=
  match ofUnits (decide (n < 0)) (n.natAbs * unitsPerOne) 1 with
  | .finite s r => some (.finite s r)
  | _ => none

/-- A natural number as a double, infinite beyond the largest finite one. -/
def ofNat (n : Nat) : Double := ofUnits false (n * unitsPerOne) 1

/-- Zero of either sign. -/
def isZero : Double → Bool
  | .finite _ r => r.val == 0
  | _ => false

/-- Neither NaN nor infinite. -/
def isFinite : Double → Bool
  | .finite _ _ => true
  | _ => false

end Double

end FrameExport
