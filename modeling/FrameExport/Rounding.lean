/-!
# Rounding a quotient to nearest, ties to even

`roundDiv num den` is the natural number nearest to `num / den`; a quotient that lies exactly half
way goes to the even neighbour.  Every rounding of this library, of doubles and of fixed decimals
alike, is an instance of it.
-/

namespace FrameExport

/-- The natural number nearest to `num / den`, an exact half going to the even neighbour. -/
def roundDiv (num den : Nat) : Nat :=
  if 2 * (num % den) < den ∨ (2 * (num % den) = den ∧ num / den % 2 = 0) then
    num / den
  else
    num / den + 1

/-- Rounding never goes below the integer part … -/
theorem div_le_roundDiv (num den : Nat) : num / den ≤ roundDiv num den := by
  unfold roundDiv
  split <;> omega

/-- … and never goes beyond the next integer. -/
theorem roundDiv_le_succ (num den : Nat) : roundDiv num den ≤ num / den + 1 := by
  unfold roundDiv
  split <;> omega

end FrameExport
