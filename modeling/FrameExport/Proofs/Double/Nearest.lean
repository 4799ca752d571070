import FrameExport.Proofs.Double.Shortest

/-!
# The nearest rank

`nearestRank num den` is a rank that the quotient rounds to: the quotient lies between the midpoints
of that rank, and on one of them only if the significand is even (`bounds_nearestRank`).  As no number
rounds to two ranks, it is the only one (`nearestRank_eq_of_roundsTo`).  It depends on the quotient
alone (`nearestRank_mul_right`).
-/

namespace FrameExport

/-! ### Rounding a quotient -/

/-- The quotient lies at most one half away from the number it is rounded to, and less if that number
is odd. -/
theorem bounds_roundDiv (num : Nat) {den : Nat} (hden : 0 < den) :
    2 * roundDiv num den * den ≤ 2 * num + den ∧ 2 * num ≤ (2 * roundDiv num den + 1) * den
      ∧ (roundDiv num den % 2 ≠ 0 →
        2 * roundDiv num den * den < 2 * num + den ∧ 2 * num < (2 * roundDiv num den + 1) * den) := by
  have hnum := Nat.div_add_mod num den
  have hrest := Nat.mod_lt num hden
  have hbelow : 2 * (num / den) * den = 2 * (den * (num / den)) := by ring
  have habove : 2 * (num / den + 1) * den = 2 * (den * (num / den)) + 2 * den := by ring
  unfold roundDiv
  split
  · rw [Nat.add_mul, hbelow, Nat.one_mul]
    refine ⟨by omega, by omega, fun hodd => ⟨by omega, by omega⟩⟩
  · rw [Nat.add_mul, habove, Nat.one_mul]
    refine ⟨by omega, by omega, fun hodd => ⟨by omega, by omega⟩⟩

theorem roundDiv_mul_right (num den : Nat) {m : Nat} (hm : 0 < m) :
    roundDiv (num * m) (den * m) = roundDiv num den := by
  have hlt : 2 * (num % den * m) < den * m ↔ 2 * (num % den) < den := by
    rw [← Nat.mul_assoc]
    exact Nat.mul_lt_mul_right hm
  have heq : 2 * (num % den * m) = den * m ↔ 2 * (num % den) = den := by
    rw [← Nat.mul_assoc]
    exact Nat.mul_left_inj (by omega)
  simp only [roundDiv, Nat.mul_mod_mul_right, Nat.mul_div_mul_right _ _ hm, hlt, heq]

namespace Double

variable {e n r c num den : Nat}

/-! ### Ranks from a scale and a significand -/

theorem binade_even : binade % 2 = 0 := rfl

/-- The rank that lies `n` places behind the first one of scale `e`, counted from zero. -/
theorem scale_and_mantissa (hlt : n < 2 * binade) (h : e = 0 ∨ binade ≤ n) :
    scale (e * binade + n) = e ∧ mantissa (e * binade + n) = n := by
  have hB := binade_pos
  by_cases hn : binade ≤ n
  · obtain ⟨k, rfl⟩ := Nat.exists_eq_add_of_le hn
    have hk : k < binade := by omega
    have hrank : e * binade + (binade + k) = k + binade * (e + 1) := by ring
    have hnot : ¬ k + binade * (e + 1) < binade := by
      have : binade * 1 ≤ binade * (e + 1) := Nat.mul_le_mul_left _ (by omega)
      omega
    rw [hrank, scale, mantissa, if_neg hnot, Nat.add_mul_div_left _ _ hB, Nat.add_mul_mod_self_left,
      Nat.div_eq_of_lt hk, Nat.mod_eq_of_lt hk]
    omega
  · obtain rfl := h.resolve_right hn
    have hn' : n < binade := by omega
    rw [Nat.zero_mul, Nat.zero_add, scale, mantissa, if_pos hn', Nat.div_eq_of_lt hn']
    exact ⟨rfl, rfl⟩

theorem unitsOfRank_add (hle : n ≤ 2 * binade) (h : e = 0 ∨ binade ≤ n) :
    unitsOfRank (e * binade + n) = n * Nat.pow 2 e := by
  rcases Nat.lt_or_eq_of_le hle with hlt | rfl
  · obtain ⟨hscale, hmantissa⟩ := scale_and_mantissa hlt h
    rw [unitsOfRank, hscale, hmantissa]
  -- twice the least significand is the least one of the next scale
  · have hB := binade_pos
    obtain ⟨hscale, hmantissa⟩ :=
      scale_and_mantissa (e := e + 1) (n := binade) (by omega) (Or.inr (Nat.le_refl _))
    have hrank : e * binade + 2 * binade = (e + 1) * binade + binade := by ring
    rw [hrank, unitsOfRank, hscale, hmantissa, two_pow_succ]
    ring

theorem upperMidpoint_add (hlt : n < 2 * binade) (h : e = 0 ∨ binade ≤ n) :
    upperMidpoint (e * binade + n) = (4 * n + 2) * Nat.pow 2 e := by
  rw [upperMidpoint, quartersAbove, unitsOfRank_add hlt.le h, (scale_and_mantissa hlt h).1]
  ring

/-- The upper midpoint lies at least one half of a step above the value. -/
theorem le_upperMidpoint_add (hle : n ≤ 2 * binade) (h : e = 0 ∨ binade ≤ n) :
    (4 * n + 2) * Nat.pow 2 e ≤ upperMidpoint (e * binade + n) := by
  rcases Nat.lt_or_eq_of_le hle with hlt | rfl
  · rw [upperMidpoint_add hlt h]
  · have hB := binade_pos
    have hrank : e * binade + 2 * binade = (e + 1) * binade + binade := by ring
    rw [hrank, upperMidpoint_add (by omega) (Or.inr (Nat.le_refl _)), two_pow_succ]
    calc (4 * (2 * binade) + 2) * Nat.pow 2 e ≤ (4 * binade + 2) * 2 * Nat.pow 2 e :=
          Nat.mul_le_mul_right _ (by omega)
      _ = (4 * binade + 2) * (2 * Nat.pow 2 e) := Nat.mul_assoc _ _ _

/-- The lower midpoint lies one half of a step below the value, unless the steps below are finer. -/
theorem lowerMidpoint_add (hle : n ≤ 2 * binade) (h : e = 0 ∨ binade < n) :
    lowerMidpoint (e * binade + n) = (4 * n - 2) * Nat.pow 2 e := by
  cases n with
  | zero =>
    obtain rfl := h.resolve_right (Nat.not_lt_zero _)
    have hunits := unitsOfRank_add (e := 0) hle (Or.inl rfl)
    rw [lowerMidpoint, hunits]
    simp
  | succ n =>
    have hhalf : 4 * (n + 1) - 2 = 4 * n + 2 := by omega
    rw [← Nat.add_assoc, lowerMidpoint_succ, upperMidpoint_add (by omega) (by omega), hhalf]

theorem lowerMidpoint_le (r : Nat) : lowerMidpoint r ≤ 4 * unitsOfRank r := Nat.sub_le _ _

/-! ### Rounding to a rank -/

/-- The scale of a quotient and its significand there, which is normal unless the scale is zero. -/
theorem bounds_significand (num den : Nat) :
    let e := (num / den).log2 - 52
    roundDiv num (den * Nat.pow 2 e) ≤ 2 * binade
      ∧ (e = 0 ∨ binade * Nat.pow 2 e ≤ num / den) := by
  intro e
  have hdiv : num / (den * Nat.pow 2 e) = num / den / Nat.pow 2 e := by
    rw [Nat.div_div_eq_div_mul]
  have hlog : num / den < Nat.pow 2 ((num / den).log2 + 1) := Nat.lt_log2_self
  have hpow : Nat.pow 2 ((num / den).log2 + 1) ≤ 2 * binade * Nat.pow 2 e := by
    have hB : 2 * binade = Nat.pow 2 53 := rfl
    rw [hB]
    calc Nat.pow 2 ((num / den).log2 + 1) ≤ Nat.pow 2 (53 + e) :=
          Nat.pow_le_pow_right (by decide) (by omega)
      _ = Nat.pow 2 53 * Nat.pow 2 e := Nat.pow_add 2 53 e
  constructor
  · have hlt : num / den / Nat.pow 2 e < 2 * binade :=
      (Nat.div_lt_iff_lt_mul (two_pow_pos e)).mpr (by omega)
    have hround := roundDiv_le_succ num (den * Nat.pow 2 e)
    omega
  · by_cases he : e = 0
    · exact Or.inl he
    · refine Or.inr ?_
      have hL : (num / den).log2 = 52 + e := by omega
      have hne : num / den ≠ 0 := by
        intro h
        rw [h] at hL
        have : Nat.log2 0 = 0 := rfl
        omega
      calc binade * Nat.pow 2 e = Nat.pow 2 (52 + e) := (Nat.pow_add 2 52 e).symm
        _ = Nat.pow 2 (num / den).log2 := by rw [hL]
        _ ≤ num / den := Nat.log2_self_le hne

/-- The quotient lies between the midpoints of its nearest rank, and on one of them only if the rank
is even. -/
theorem bounds_nearestRank (num : Nat) (hden : 0 < den) :
    lowerMidpoint (nearestRank num den) * den ≤ 4 * num
      ∧ 4 * num ≤ upperMidpoint (nearestRank num den) * den
      ∧ (nearestRank num den % 2 ≠ 0 →
        lowerMidpoint (nearestRank num den) * den < 4 * num
          ∧ 4 * num < upperMidpoint (nearestRank num den) * den) := by
  obtain ⟨hle, hnormal⟩ := bounds_significand num den
  have hrank : nearestRank num den = ((num / den).log2 - 52) * binade
      + roundDiv num (den * Nat.pow 2 ((num / den).log2 - 52)) := rfl
  generalize (num / den).log2 - 52 = e at hle hnormal hrank
  have hpos : 0 < den * Nat.pow 2 e := Nat.mul_pos hden (two_pow_pos e)
  obtain ⟨hlow, hhigh, hodd⟩ := bounds_roundDiv num hpos
  have hge : e = 0 ∨ binade ≤ roundDiv num (den * Nat.pow 2 e) := by
    refine hnormal.imp_right fun h => ?_
    refine le_trans ?_ (div_le_roundDiv num (den * Nat.pow 2 e))
    rw [← Nat.div_div_eq_div_mul]
    exact (Nat.le_div_iff_mul_le (two_pow_pos e)).mpr h
  generalize hn : roundDiv num (den * Nat.pow 2 e) = n at *
  rw [hrank]
  have hparity : (e * binade + n) % 2 = n % 2 := by
    rw [Nat.add_mod, Nat.mul_mod, binade_even]
    simp
  rw [hparity]
  -- everything is compared in terms of the step, which is the divisor at this scale
  have hstep : ∀ m, m * Nat.pow 2 e * den = m * (den * Nat.pow 2 e) := fun m => by ring
  have hupper := Nat.mul_le_mul_right den (le_upperMidpoint_add hle hge)
  rw [hstep, Nat.add_mul, Nat.mul_assoc] at hupper
  rw [Nat.mul_assoc] at hlow
  rw [Nat.add_mul, Nat.mul_assoc, Nat.one_mul] at hhigh
  rw [Nat.add_mul, Nat.mul_assoc, Nat.one_mul] at hodd
  by_cases hfine : e = 0 ∨ binade < n
  · rw [lowerMidpoint_add hle hfine, hstep, Nat.sub_mul, Nat.mul_assoc]
    refine ⟨by omega, by omega, fun hn => ?_⟩
    have hone : den * Nat.pow 2 e ≤ n * (den * Nat.pow 2 e) := Nat.le_mul_of_pos_left _ (by omega)
    have := hodd hn
    omega
  -- the least significand of a scale: the quotient lies above the value
  · rw [not_or] at hfine
    obtain rfl : n = binade := by omega
    have hvalue := Nat.mul_le_mul_right den (lowerMidpoint_le (e * binade + binade))
    rw [unitsOfRank_add hle hge, ← Nat.mul_assoc, hstep, Nat.mul_assoc] at hvalue
    have hquotient := (Nat.le_div_iff_mul_le hden).mp (hnormal.resolve_left hfine.1)
    rw [hstep] at hquotient
    exact ⟨by omega, by omega, fun hn => absurd binade_even hn⟩

/-- The midpoints decide what rounds to a rank. -/
theorem roundsTo_iff : roundsTo r c = true
    ↔ lowerMidpoint r * finePerUnit ≤ 4 * c ∧ 4 * c ≤ upperMidpoint r * finePerUnit
      ∧ (r % 2 ≠ 0 →
        lowerMidpoint r * finePerUnit < 4 * c ∧ 4 * c < upperMidpoint r * finePerUnit) := by
  constructor
  · intro h
    have hbounds := bounds_of_roundsTo h
    rwa [mantissa_mod_two] at hbounds
  · rintro ⟨hlow, hhigh, hodd⟩
    unfold roundsTo
    simp only [← lowerMidpoint.eq_def, ← upperMidpoint.eq_def, mantissa_mod_two]
    split
    · exact decide_eq_true ⟨hlow, hhigh⟩
    · exact decide_eq_true (hodd ‹_›)

/-- What rounds to a rank has it as its nearest one. -/
theorem nearestRank_eq_of_roundsTo (h : roundsTo r c = true) : nearestRank c finePerUnit = r :=
  roundsTo_unique (roundsTo_iff.mpr (bounds_nearestRank c finePerUnit_pos)) h

/-- Only the quotient matters. -/
theorem nearestRank_mul_right (num den : Nat) {m : Nat} (hm : 0 < m) :
    nearestRank (num * m) (den * m) = nearestRank num den := by
  have hstep : den * m * Nat.pow 2 ((num / den).log2 - 52)
      = den * Nat.pow 2 ((num / den).log2 - 52) * m := by ring
  rw [nearestRank, nearestRank, Nat.mul_div_mul_right _ _ hm, hstep, roundDiv_mul_right _ _ hm]

end Double

end FrameExport
