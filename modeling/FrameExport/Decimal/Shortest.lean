import FrameExport.Decimal.Basic

/-!
# The shortest decimal that reads back

Every double is a whole multiple of `10 ^ -1074`, because `2 ^ -1074` is `5 ^ 1074` of those.  In
this common unit a magnitude, the two ends of the interval of numbers that round to it, and the
points of every decimal grid are natural numbers, and the search below compares nothing else.

`shortest r` walks from the coarsest grid to the finest.  On each grid it looks at the two
neighbours of the value; the first grid that has one of them inside the interval gives the answer,
the nearer one if both are inside, and the one with the even last digit if they are equally near.
If any point of a grid lies in the interval then a neighbour of the value does, so no shorter
decimal reads back.
-/

namespace FrameExport.Double

/-- One unit `2 ^ -1074` as a multiple of `10 ^ -1074`. -/
def finePerUnit : Nat := Nat.pow 5 1074

/-- The magnitude of a rank as a multiple of `10 ^ -1074`. -/
def fine (r : Nat) : Nat := unitsOfRank r * finePerUnit

/-- The distance down to the next double, in quarters of a unit: half a step, or a quarter of one
where the binade below has the finer steps. -/
def quartersBelow (r : Nat) : Nat :=
  if mantissa r = binade ∧ 0 < scale r then Nat.pow 2 (scale r) else 2 * Nat.pow 2 (scale r)

/-- The distance up to the next double, in quarters of a unit. -/
def quartersAbove (r : Nat) : Nat := 2 * Nat.pow 2 (scale r)

/-- Whether a multiple of `10 ^ -1074` rounds to rank `r`: it lies between the two midpoints, which
count in exactly when the significand is even. -/
def roundsTo (r c : Nat) : Bool :=
  let low := (4 * unitsOfRank r - quartersBelow r) * finePerUnit
  let high := (4 * unitsOfRank r + quartersAbove r) * finePerUnit
  if mantissa r % 2 = 0 then decide (low ≤ 4 * c ∧ 4 * c ≤ high)
  else decide (low < 4 * c ∧ 4 * c < high)

/-- The first `d` from `start` on with `n < 10 ^ d`, looked for at most `fuel` places further. -/
def digitCountFrom (n : Nat) : (fuel start : Nat) → Nat
  | 0, d => d
  | fuel + 1, d => if n < Nat.pow 10 d then d else digitCountFrom n fuel (d + 1)

/-- The number of decimal digits of a positive number.  A number of `b + 1` bits has at least
`3 * b / 10` digits, so the search starts there. -/
def digitCount (n : Nat) : Nat := digitCountFrom n (n.log2 + 1) (n.log2 * 3 / 10)

/-- The better of the two neighbours `a` and `a + 1` of the value on the grid of step `10 ^ k`, if
one of them rounds to rank `r`. -/
def neighbour? (r k : Nat) : Option Nat :=
  let step := Nat.pow 10 k
  let a := fine r / step
  let rest := fine r % step
  match roundsTo r (a * step), roundsTo r ((a + 1) * step) with
  | true, true =>
    if 2 * rest < step then some a
    else if step < 2 * rest then some (a + 1)
    else if a % 2 = 0 then some a else some (a + 1)
  | true, false => some a
  | false, true => some (a + 1)
  | false, false => none

/-- The answer of the coarsest grid with step at most `10 ^ k` that has one; the value itself, which
lies on the finest grid, if none has. -/
def shortestFrom (r : Nat) : Nat → Decimal
  | 0 => ⟨fine r, -1074⟩
  | k + 1 =>
    match neighbour? r (k + 1) with
    | some a => ⟨a, (k + 1 : Nat) - 1074⟩
    | none => shortestFrom r k

/-- The decimal with the fewest digits among those that round to rank `r`, and among these the one
nearest to its value. -/
def shortest (r : Nat) : Decimal :=
  if unitsOfRank r = 0 then ⟨0, 0⟩ else shortestFrom r (digitCount (fine r))

end FrameExport.Double
