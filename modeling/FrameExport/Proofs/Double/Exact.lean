import FrameExport.Double.Arithmetic
import FrameExport.Proofs.Double.ReadBack

/-!
# Exact differences

The value of a finite double is a whole number of units (`Double.units?`).  A number of units that
some double has is not moved by rounding (`units?_ofSignedUnits`).  So a difference is exact if some
double has its value (`units?_sub`), and a finite double taken from itself leaves nothing
(`sub_self_of_isFinite`).

A difference is finite if both doubles are and rounding does not take it beyond them
(`isFinite_sub_iff`).
-/

namespace FrameExport.Double

variable {x y : Double}

/-- The value of a finite double in units. -/
def units? : Double → Option Int
  | .finite negative r => some (signedUnits negative r)
  | _ => none

/-- The difference of two finite doubles needs no rounding: some double has just its value. -/
def HasExactDifference (x y : Double) : Prop :=
  ∃ m n z, units? x = some m ∧ units? y = some n ∧ units? z = some (m - n)

/-! ### Rounding what need not be rounded -/

theorem nearestRank_unitsOfRank (r : Nat) : nearestRank (unitsOfRank r) 1 = r := by
  rw [← nearestRank_mul_right _ _ finePerUnit_pos, Nat.one_mul]
  exact nearestRank_eq_of_roundsTo (roundsTo_fine r)

theorem signedUnits_not (negative : Bool) (r : Nat) :
    signedUnits (!negative) r = -signedUnits negative r := by
  cases negative with
  | true => exact (Int.neg_neg _).symm
  | false => rfl

theorem natAbs_signedUnits (negative : Bool) (r : Nat) :
    (signedUnits negative r).natAbs = unitsOfRank r := by
  cases negative with
  | true => exact (Int.natAbs_neg _).trans (Int.natAbs_natCast _)
  | false => exact Int.natAbs_natCast _

/-- The sign of a number, which counts for nothing if it is zero, and its magnitude make it up. -/
theorem signed_natAbs (zeroNegative : Bool) (n : Int) :
    (if (if n = 0 then zeroNegative else decide (n < 0)) = true then -(n.natAbs : Int)
      else (n.natAbs : Int)) = n := by
  by_cases hzero : n = 0
  · subst hzero
    exact ite_self 0
  · rw [if_neg hzero]
    by_cases hneg : n < 0
    · rw [if_pos (decide_eq_true hneg)]
      omega
    · rw [if_neg (by simpa using hneg)]
      omega

/-- A number of units that some double has is not moved by rounding. -/
theorem units?_ofSignedUnits (zeroNegative : Bool) {n : Int} (h : ∃ z, units? z = some n) :
    (ofSignedUnits zeroNegative n).units? = some n := by
  obtain ⟨z, hz⟩ := h
  cases z with
  | nan => cases hz
  | infinite negative => cases hz
  | finite negative r =>
    obtain rfl : signedUnits negative r = n := Option.some.inj hz
    have hnearest : nearestRank (signedUnits negative r).natAbs 1 = r := by
      rw [natAbs_signedUnits, nearestRank_unitsOfRank]
    rw [ofSignedUnits, ofUnits_eq_finite _ r.isLt hnearest, units?, signedUnits,
      ← natAbs_signedUnits negative r, signed_natAbs]

theorem units?_zero : units? zero = some 0 := by
  rw [zero, ofUnits_eq_finite false (by decide) nearestRank_zero]
  rfl

theorem isFinite_zero : zero.isFinite = true := by
  rw [zero, ofUnits_eq_finite false (by decide) nearestRank_zero]
  rfl

/-! ### Differences -/

theorem sub_finite (s t : Bool) (a b : Fin rankCount) :
    finite s a - finite t b = ofSignedUnits (s && !t) (signedUnits s a - signedUnits t b) := by
  rw [Int.sub_eq_add_neg, ← signedUnits_not]
  rfl

theorem units?_sub {m n : Int} (hx : x.units? = some m) (hy : y.units? = some n)
    (h : ∃ z, units? z = some (m - n)) : (x - y).units? = some (m - n) := by
  cases x with
  | nan => cases hx
  | infinite negative => cases hx
  | finite s a =>
    cases y with
    | nan => cases hy
    | infinite negative => cases hy
    | finite t b =>
      obtain rfl : signedUnits s a = m := Option.some.inj hx
      obtain rfl : signedUnits t b = n := Option.some.inj hy
      rw [sub_finite]
      exact units?_ofSignedUnits _ h

theorem sub_self_of_isFinite (h : x.isFinite = true) : x - x = zero := by
  cases x with
  | nan => cases h
  | infinite negative => cases h
  | finite s a =>
    rw [sub_finite, Bool.and_not_self, Int.sub_self]
    rfl

/-! ### Finite differences -/

theorem rankCount_pos : 0 < rankCount := Nat.mul_pos (by decide) binade_pos

/-- A number of units is rounded to a finite double if it lies below the midpoint that follows the
greatest one. -/
theorem isFinite_ofUnits_iff {negative : Bool} {num : Nat} :
    (ofUnits negative num 1).isFinite = true ↔ 4 * num < upperMidpoint (rankCount - 1) := by
  obtain ⟨hlow, hhigh, hodd⟩ := bounds_nearestRank num Nat.one_pos
  rw [Nat.mul_one] at hlow hhigh hodd
  have hpos := rankCount_pos
  unfold ofUnits
  split
  · rename_i hrank
    refine iff_of_true rfl ?_
    rcases Nat.lt_or_eq_of_le (Nat.le_sub_one_of_lt hrank) with hlt | heq
    · have hnext := (upperMidpoint_le_lowerMidpoint hlt).1
      have hlast := lowerMidpoint_lt_upperMidpoint (rankCount - 1)
      omega
    -- the greatest rank is odd, so its upper midpoint is rounded away from it
    · have hlast : (rankCount - 1) % 2 ≠ 0 := by decide
      rw [heq] at hodd
      have := (hodd hlast).2
      omega
  · rename_i hrank
    have hnext := (upperMidpoint_le_lowerMidpoint (r := rankCount - 1)
      (s := nearestRank num 1) (by omega)).1
    exact iff_of_false Bool.false_ne_true (by omega)

/-- Both doubles are finite, and their difference is not too large to be rounded to a finite one. -/
def HasFiniteDifference (x y : Double) : Prop :=
  ∃ m n, units? x = some m ∧ units? y = some n ∧ 4 * (m - n).natAbs < upperMidpoint (rankCount - 1)

theorem isFinite_infinite_sub (s : Bool) (y : Double) : (infinite s - y).isFinite = false := by
  cases y with
  | infinite t => cases s <;> cases t <;> rfl
  | _ => rfl

/-- Only a finite double taken from itself leaves zero. -/
theorem sub_self_eq_zero_iff : x - x = zero ↔ x.isFinite = true := by
  refine ⟨fun h => ?_, sub_self_of_isFinite⟩
  have hfinite : (x - x).isFinite = true := h ▸ isFinite_zero
  cases x with
  | nan => cases hfinite
  | infinite s =>
    rw [isFinite_infinite_sub] at hfinite
    cases hfinite
  | finite s r => rfl

/-- A difference is finite exactly if both doubles are and it is not too large. -/
theorem isFinite_sub_iff : (x - y).isFinite = true ↔ x.HasFiniteDifference y := by
  cases x with
  | nan =>
    refine iff_of_false Bool.false_ne_true ?_
    rintro ⟨_, _, h, -⟩
    cases h
  | infinite s =>
    rw [isFinite_infinite_sub]
    refine iff_of_false Bool.false_ne_true ?_
    rintro ⟨_, _, h, -⟩
    cases h
  | finite s a =>
    cases y with
    | finite t b =>
      rw [sub_finite, ofSignedUnits, isFinite_ofUnits_iff]
      refine ⟨fun h => ⟨_, _, rfl, rfl, h⟩, ?_⟩
      rintro ⟨m, n, hm, hn, h⟩
      obtain rfl := Option.some.inj hm
      obtain rfl := Option.some.inj hn
      exact h
    | _ =>
      refine iff_of_false Bool.false_ne_true ?_
      rintro ⟨_, _, -, h, -⟩
      cases h

end FrameExport.Double
