import FrameExport.Proofs.Double.Value

/-!
# Rounding keeps the order

`roundUnits` takes a number of units to that of the nearest double, as if there were no greatest one,
and `roundSignedUnits` does the same with a sign.  They are what finite sums and products come to
(`units?_add`, `units?_mul`).

* A greater number is never rounded to a smaller one (`roundSignedUnits_mono`).
* A multiple of a power of two with at most 53 digits is not moved (`roundUnits_mul_two_pow`).  So no
  number is rounded across such a multiple.
* Half way between two neighbours the even one is taken (`roundUnits_tie`).
-/

namespace FrameExport.Double

variable {den e m n r : Nat} {x : Double}

/-! ### Ranks -/

theorem strictMono_unitsOfRank : StrictMono unitsOfRank := by
  apply strictMono_nat_of_lt_succ
  intro r
  have hstep := two_pow_pos (scale r)
  rw [unitsOfRank_succ]
  omega

theorem mantissa_lt (r : Nat) : mantissa r < 2 * binade := by
  have hrest := Nat.mod_lt r binade_pos
  unfold mantissa
  split <;> omega

theorem binade_le_mantissa (h : 0 < scale r) : binade ≤ mantissa r := by
  unfold mantissa
  split
  case isTrue hr =>
    rw [scale, Nat.div_eq_of_lt hr] at h
    exact absurd h (Nat.lt_irrefl 0)
  case isFalse => omega

/-- A magnitude has one significand and scale. -/
theorem scale_and_mantissa_of_unitsOfRank (hm : m < 2 * binade) (h : e = 0 ∨ binade ≤ m)
    (hr : unitsOfRank r = m * Nat.pow 2 e) : scale r = e ∧ mantissa r = m := by
  rw [← unitsOfRank_add hm.le h] at hr
  rw [strictMono_unitsOfRank.injective hr]
  exact scale_and_mantissa hm h

/-- A greater quotient has no lower nearest rank. -/
theorem nearestRank_mono (hden : 0 < den) (h : m ≤ n) : nearestRank m den ≤ nearestRank n den := by
  obtain ⟨hlow, -, hlow'⟩ := bounds_nearestRank m hden
  obtain ⟨-, hhigh, hhigh'⟩ := bounds_nearestRank n hden
  by_contra hlt
  obtain ⟨hle, hstrict⟩ := upperMidpoint_le_lowerMidpoint (Nat.lt_of_not_le hlt)
  -- the midpoints meet only if the ranks are neighbours, and then one of them is odd
  by_cases hnext : nearestRank n den + 1 < nearestRank m den
  · have hgap := Nat.mul_lt_mul_of_pos_right (hstrict hnext) hden
    omega
  · have hmeet := Nat.mul_le_mul_right den hle
    omega

/-- The nearest rank is the one between whose midpoints the number lies. -/
theorem nearestRank_eq (hlow : lowerMidpoint r ≤ 4 * n) (hhigh : 4 * n ≤ upperMidpoint r)
    (hodd : r % 2 ≠ 0 → lowerMidpoint r < 4 * n ∧ 4 * n < upperMidpoint r) :
    nearestRank n 1 = r := by
  have hscale : 4 * (n * finePerUnit) = 4 * n * finePerUnit := (Nat.mul_assoc _ _ _).symm
  have hrounds : roundsTo r (n * finePerUnit) = true := by
    rw [roundsTo_iff, hscale]
    refine ⟨Nat.mul_le_mul_right _ hlow, Nat.mul_le_mul_right _ hhigh, fun h => ?_⟩
    exact ⟨Nat.mul_lt_mul_of_pos_right (hodd h).1 finePerUnit_pos,
      Nat.mul_lt_mul_of_pos_right (hodd h).2 finePerUnit_pos⟩
  rw [← nearestRank_eq_of_roundsTo hrounds, ← nearestRank_mul_right n 1 finePerUnit_pos, Nat.one_mul]

/-! ### Magnitudes -/

/-- A number of units, rounded to that of a double. -/
def roundUnits (m : Nat) : Nat := unitsOfRank (nearestRank m 1)

theorem monotone_roundUnits : Monotone roundUnits :=
  fun _ _ h => strictMono_unitsOfRank.monotone (nearestRank_mono Nat.one_pos h)

theorem roundUnits_unitsOfRank (r : Nat) : roundUnits (unitsOfRank r) = unitsOfRank r := by
  rw [roundUnits, nearestRank_unitsOfRank]

theorem exists_unitsOfRank_eq (hm : m ≤ 2 * binade) (e : Nat) :
    ∃ r, unitsOfRank r = m * Nat.pow 2 e := by
  induction e generalizing m with
  | zero => exact ⟨0 * binade + m, unitsOfRank_add hm (Or.inl rfl)⟩
  | succ e ih =>
    by_cases hnormal : binade ≤ m
    · exact ⟨(e + 1) * binade + m, unitsOfRank_add hm (Or.inr hnormal)⟩
    -- a significand below the normal ones is doubled, for the next smaller scale
    · obtain ⟨r, hr⟩ := ih (m := 2 * m) (by omega)
      refine ⟨r, ?_⟩
      rw [hr, two_pow_succ]
      ring

/-- What has a significand of at most 53 digits is not moved. -/
theorem roundUnits_mul_two_pow (hm : m ≤ 2 * binade) (e : Nat) :
    roundUnits (m * Nat.pow 2 e) = m * Nat.pow 2 e := by
  obtain ⟨r, hr⟩ := exists_unitsOfRank_eq hm e
  rw [← hr, roundUnits_unitsOfRank]

/-- Half way between two neighbours the one with the even significand is taken. -/
theorem roundUnits_tie (hnormal : binade ≤ m) (hm : m < 2 * binade) (e : Nat) :
    roundUnits ((2 * m + 1) * Nat.pow 2 e) = (m + m % 2) * Nat.pow 2 (e + 1) := by
  have hmidpoint : upperMidpoint ((e + 1) * binade + m) = 4 * ((2 * m + 1) * Nat.pow 2 e) := by
    rw [upperMidpoint_add hm (Or.inr hnormal), two_pow_succ]
    ring
  have hlow := lowerMidpoint_lt_upperMidpoint ((e + 1) * binade + m)
  have hparity : ((e + 1) * binade + m) % 2 = m % 2 := by
    rw [Nat.add_mod, Nat.mul_mod, binade_even]
    simp
  rcases Nat.mod_two_eq_zero_or_one m with heven | hodd
  · have hrank : nearestRank ((2 * m + 1) * Nat.pow 2 e) 1 = (e + 1) * binade + m :=
      nearestRank_eq (by omega) (by omega) (by omega)
    rw [roundUnits, hrank, unitsOfRank_add hm.le (Or.inr hnormal), heven]
    rfl
  -- the midpoint is also the lower one of the next rank, which is even
  · have hnext : lowerMidpoint ((e + 1) * binade + (m + 1))
        = upperMidpoint ((e + 1) * binade + m) := by
      rw [← Nat.add_assoc, lowerMidpoint_succ]
    have hhigh := lowerMidpoint_lt_upperMidpoint ((e + 1) * binade + (m + 1))
    have hrank : nearestRank ((2 * m + 1) * Nat.pow 2 e) 1 = (e + 1) * binade + (m + 1) :=
      nearestRank_eq (by omega) (by omega) (by omega)
    rw [roundUnits, hrank, unitsOfRank_add hm (Or.inr (by omega)), hodd]

/-- A number that is at most one quarter of a step away from a double is rounded to it. -/
theorem roundUnits_of_near (hnormal : binade ≤ m) (hm : m < 2 * binade)
    (hlow : 4 * (m * Nat.pow 2 e) ≤ 4 * n + Nat.pow 2 e)
    (hhigh : 4 * n ≤ 4 * (m * Nat.pow 2 e) + Nat.pow 2 e) : roundUnits n = m * Nat.pow 2 e := by
  have hunits := unitsOfRank_add hm.le (Or.inr hnormal : e = 0 ∨ binade ≤ m)
  obtain ⟨hscale, hmantissa⟩ := scale_and_mantissa hm (Or.inr hnormal : e = 0 ∨ binade ≤ m)
  have hparity := mantissa_mod_two (e * binade + m)
  have hstep := two_pow_pos e
  have hvalue : Nat.pow 2 e ≤ m * Nat.pow 2 e :=
    Nat.le_mul_of_pos_left _ (binade_pos.trans_le hnormal)
  have hrank : nearestRank n 1 = e * binade + m := by
    apply nearestRank_eq
    · rw [lowerMidpoint, quartersBelow, hscale, hunits]
      split <;> omega
    · rw [upperMidpoint, quartersAbove, hscale, hunits]
      omega
    -- an odd significand is not the least one, so the steps below are not finer
    · intro hodd
      rw [lowerMidpoint, upperMidpoint, quartersBelow, quartersAbove, hscale, hmantissa, hunits,
        if_neg (by have := binade_even; omega)]
      omega
  rw [roundUnits, hrank, hunits]

/-! ### Signed numbers -/

/-- A signed number of units, rounded to that of a double. -/
def roundSignedUnits (n : Int) : Int :=
  if n < 0 then -(roundUnits n.natAbs : Int) else roundUnits n.natAbs

theorem roundSignedUnits_natCast (m : Nat) : roundSignedUnits m = roundUnits m := by
  rw [roundSignedUnits, if_neg (by omega), Int.natAbs_natCast]

theorem roundUnits_zero : roundUnits 0 = 0 := roundUnits_unitsOfRank 0

theorem roundSignedUnits_neg (n : Int) : roundSignedUnits (-n) = -roundSignedUnits n := by
  unfold roundSignedUnits
  rw [Int.natAbs_neg]
  rcases Int.lt_trichotomy n 0 with hneg | rfl | hpos
  · rw [if_neg (by omega), if_pos hneg, Int.neg_neg]
  · simp [roundUnits_zero]
  · rw [if_pos (by omega), if_neg (by omega)]

/-- A greater number is not rounded to a smaller one. -/
theorem roundSignedUnits_mono {k l : Int} (h : k ≤ l) : roundSignedUnits k ≤ roundSignedUnits l := by
  unfold roundSignedUnits
  have hmono : ∀ {i j : Nat}, i ≤ j → roundUnits i ≤ roundUnits j := fun h => monotone_roundUnits h
  split_ifs with hk hl hl
  · have := hmono (i := l.natAbs) (j := k.natAbs) (by omega)
    omega
  · omega
  · omega
  · have := hmono (i := k.natAbs) (j := l.natAbs) (by omega)
    omega

/-- A finite double made of a number of units has the number that this is rounded to. -/
theorem units?_ofSignedUnits_of_isFinite {zeroNegative : Bool} {k : Int}
    (h : (ofSignedUnits zeroNegative k).isFinite = true) :
    (ofSignedUnits zeroNegative k).units? = some (roundSignedUnits k) := by
  unfold ofSignedUnits at h ⊢
  unfold ofUnits at h ⊢
  split at h
  case isFalse => cases h
  case isTrue hrank =>
    rw [dif_pos hrank, units?, signedUnits, roundSignedUnits, roundUnits]
    by_cases hzero : k = 0
    · subst hzero
      simp [nearestRank_zero, unitsOfRank, mantissa, binade_pos]
    · simp only [if_neg hzero, decide_eq_true_eq]

/-! ### Sums and products -/

theorem add_finite (s t : Bool) (a b : Fin rankCount) :
    finite s a + finite t b = ofSignedUnits (s && t) (signedUnits s a + signedUnits t b) := by
  show Double.add (finite s a) (finite t b) = _
  rw [Double.add]

theorem units?_add {y : Double} {m n : Int} (hx : x.units? = some m) (hy : y.units? = some n)
    (h : (x + y).isFinite = true) : (x + y).units? = some (roundSignedUnits (m + n)) := by
  cases x with
  | nan => cases hx
  | infinite s => cases hx
  | finite s a =>
    cases y with
    | nan => cases hy
    | infinite t => cases hy
    | finite t b =>
      rw [add_finite] at h ⊢
      rw [units?_ofSignedUnits_of_isFinite h, ← Option.some.inj hx, ← Option.some.inj hy]

/-- A sum is finite only if its first term is … -/
theorem isFinite_of_isFinite_add {y : Double} (h : (x + y).isFinite = true) : x.isFinite = true := by
  cases x with
  | nan => cases h
  | infinite s =>
    cases y with
    | nan => cases h
    | infinite t => cases s <;> cases t <;> cases h
    | finite t b => cases h
  | finite s a => rfl

/-- … and a product only if its first factor is. -/
theorem isFinite_of_isFinite_mul {y : Double} (h : (x * y).isFinite = true) : x.isFinite = true := by
  cases x with
  | nan => cases h
  | infinite s =>
    cases y with
    | nan => cases h
    | infinite t => cases h
    | finite t b =>
      change (if b.val = 0 then nan else infinite (s != t)).isFinite = true at h
      split at h
      · cases h
      · cases h
  | finite s a => rfl

theorem mul_finite (s t : Bool) (a b : Fin rankCount) :
    finite s a * finite t b = ofUnits (s != t) (unitsOfRank a * unitsOfRank b) unitsPerOne := by
  show Double.mul (finite s a) (finite t b) = _
  rw [Double.mul]

/-- A finite product with a whole number, in units. -/
theorem units?_mul {y : Double} {m : Int} {w : Nat} (hw : 0 < w) (hx : x.units? = some m)
    (hy : y.units? = some ((w * unitsPerOne : Nat) : Int)) (h : (x * y).isFinite = true) :
    (x * y).units? = some (roundSignedUnits (w * m)) := by
  cases x with
  | nan => cases hx
  | infinite s => cases hx
  | finite s a =>
    cases y with
    | nan => cases hy
    | infinite t => cases hy
    | finite t b =>
      have hpos : 0 < w * unitsPerOne := Nat.mul_pos hw unitsPerOne_pos
      have hb : signedUnits t b = (w * unitsPerOne : Nat) := Option.some.inj hy
      obtain rfl : t = false := by
        cases t with
        | false => rfl
        | true =>
          rw [signedUnits, if_pos rfl] at hb
          omega
      have hrank : nearestRank (unitsOfRank a * unitsOfRank b) unitsPerOne
          = nearestRank (w * unitsOfRank a) 1 := by
        have hunits : unitsOfRank b = w * unitsPerOne := by
          rw [← natAbs_signedUnits false, hb, Int.natAbs_natCast]
        rw [← nearestRank_mul_right _ 1 unitsPerOne_pos, Nat.one_mul, hunits, ← Nat.mul_assoc,
          Nat.mul_comm w]
      rw [mul_finite, ofUnits, Bool.bne_false] at h ⊢
      split at h
      case isFalse => cases h
      case isTrue hlt =>
        rw [dif_pos hlt, units?, ← Option.some.inj hx]
        unfold signedUnits
        dsimp only
        rw [hrank]
        cases s with
        | false =>
          rw [if_neg Bool.false_ne_true, if_neg Bool.false_ne_true, ← Int.natCast_mul,
            roundSignedUnits_natCast, roundUnits]
        | true =>
          rw [if_pos rfl, if_pos rfl, Int.mul_neg, roundSignedUnits_neg, ← Int.natCast_mul,
            roundSignedUnits_natCast, roundUnits]

end FrameExport.Double
