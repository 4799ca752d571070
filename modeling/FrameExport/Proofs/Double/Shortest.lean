import FrameExport.Decimal.Shortest
import FrameExport.Decimal.Written
import FrameExport.Proofs.Decimal.Written
import Mathlib.Tactic.Ring

/-!
# Shortest decimals tell doubles apart

The numbers that round to one rank are those between its two midpoints (`roundsTo`).  Neighbouring
ranks share a midpoint (`four_mul_unitsOfRank_succ`), which belongs to the one whose significand is
even, and of two neighbours exactly one is even (`mantissa_mod_two`).  So no number rounds to two
ranks (`roundsTo_unique`).  The shortest decimal of a rank rounds to it (`roundsTo_shortest`), and
thus its text determines the rank (`written_shortest_injective`).
-/

namespace FrameExport.Double

/-! ### Steps between ranks -/

theorem binade_pos : 0 < binade := Nat.pow_pos (by decide)

theorem two_pow_pos (n : Nat) : 0 < Nat.pow 2 n := Nat.pow_pos (by decide)

theorem two_pow_succ (n : Nat) : Nat.pow 2 (n + 1) = 2 * Nat.pow 2 n := by
  rw [Nat.mul_comm]
  rfl

/-- A significand is even exactly when its rank is, because a binade has an even number of ranks. -/
theorem mantissa_mod_two (r : Nat) : mantissa r % 2 = r % 2 := by
  have hB : binade = 2 * Nat.pow 2 51 := rfl
  unfold mantissa
  split
  · rfl
  · have hr := Nat.div_add_mod r binade
    -- the whole binades before the rank are an even number of ranks
    have heven : binade * (r / binade) = 2 * (Nat.pow 2 51 * (r / binade)) := by
      rw [hB, Nat.mul_assoc]
    omega

/-- Inside a binade the scale stays and the significand grows by one. -/
theorem succ_of_mod_ne_zero {r : Nat} (h : (r + 1) % binade ≠ 0) :
    scale (r + 1) = scale r ∧ mantissa (r + 1) = mantissa r + 1 := by
  have hdiv : (r + 1) / binade = r / binade := Nat.succ_div_of_mod_ne_zero h
  have hmod : (r + 1) % binade = r % binade + 1 := by
    have h1 := Nat.div_add_mod r binade
    have h2 := Nat.div_add_mod (r + 1) binade
    rw [hdiv] at h2
    omega
  refine ⟨by rw [scale, scale, hdiv], ?_⟩
  have hne : r + 1 ≠ binade := by
    intro he
    rw [he, Nat.mod_self] at h
    exact h rfl
  unfold mantissa
  split <;> split <;> omega

/-- The first rank of a binade has the least significand, and the rank before it the greatest. -/
theorem succ_of_mod_eq_zero {r : Nat} (h : (r + 1) % binade = 0) :
    mantissa (r + 1) = binade ∧ (r + 1) / binade = r / binade + 1 ∧ r % binade = binade - 1 := by
  have hdiv : (r + 1) / binade = r / binade + 1 := Nat.succ_div_of_mod_eq_zero h
  have h1 := Nat.div_add_mod r binade
  have h2 := Nat.div_add_mod (r + 1) binade
  rw [hdiv, h, Nat.mul_add, Nat.mul_one] at h2
  refine ⟨?_, hdiv, by omega⟩
  unfold mantissa
  split
  · omega
  · rw [h, Nat.add_zero]

/-- The step from one rank to the next is the scale of the lower one. -/
theorem unitsOfRank_succ (r : Nat) :
    unitsOfRank (r + 1) = unitsOfRank r + Nat.pow 2 (scale r) := by
  by_cases h : (r + 1) % binade = 0
  · obtain ⟨hm, hdiv, hmod⟩ := succ_of_mod_eq_zero h
    have hB := binade_pos
    unfold unitsOfRank
    rw [hm]
    by_cases hr : r < binade
    · -- the passage from the subnormal range, where the scale does not change
      have hq : r / binade = 0 := Nat.div_eq_of_lt hr
      have hr' : r = binade - 1 := by rw [← hmod, Nat.mod_eq_of_lt hr]
      have hmr : mantissa r = binade - 1 := by rw [mantissa, if_pos hr, hr']
      have hs : scale (r + 1) = 0 := by rw [scale, hdiv, hq]
      have hs' : scale r = 0 := by rw [scale, hq]
      rw [hs, hs', hmr]
      have hone : Nat.pow 2 0 = 1 := rfl
      rw [hone]
      omega
    -- the passage to a greater scale, where one more would make the significand twice the least
    · have hq : 1 ≤ r / binade := (Nat.one_le_div_iff hB).mpr (by omega)
      have hs : scale (r + 1) = scale r + 1 := by
        rw [scale, scale, hdiv]
        omega
      have hmr : mantissa r + 1 = 2 * binade := by
        rw [mantissa, if_neg hr, hmod]
        omega
      rw [hs, two_pow_succ]
      calc binade * (2 * Nat.pow 2 (scale r)) = (2 * binade) * Nat.pow 2 (scale r) := by ring
        _ = (mantissa r + 1) * Nat.pow 2 (scale r) := by rw [hmr]
        _ = mantissa r * Nat.pow 2 (scale r) + Nat.pow 2 (scale r) := by ring
  · obtain ⟨hs, hm⟩ := succ_of_mod_ne_zero h
    unfold unitsOfRank
    rw [hs, hm]
    ring

/-! ### Midpoints -/

/-- The upper midpoint of a rank, in quarters of a unit. -/
def upperMidpoint (r : Nat) : Nat := 4 * unitsOfRank r + quartersAbove r

/-- The lower midpoint of a rank, in quarters of a unit. -/
def lowerMidpoint (r : Nat) : Nat := 4 * unitsOfRank r - quartersBelow r

/-- The distance down from a rank is the distance up from the one below. -/
theorem quartersBelow_succ (r : Nat) : quartersBelow (r + 1) = quartersAbove r := by
  unfold quartersBelow quartersAbove
  by_cases h : (r + 1) % binade = 0
  · obtain ⟨hm, hdiv, -⟩ := succ_of_mod_eq_zero h
    have hs : scale (r + 1) = r / binade := by
      rw [scale, hdiv, Nat.add_sub_cancel]
    -- only above the subnormal range the distance down is half of a step
    by_cases hq : r / binade = 0
    · have hs' : scale r = 0 := by rw [scale, hq]
      rw [if_neg (by omega), hs, hs', hq]
    · have hs' : scale (r + 1) = scale r + 1 := by
        rw [hs, scale]
        omega
      rw [if_pos ⟨hm, by omega⟩, hs', two_pow_succ]
  · obtain ⟨hs, hm⟩ := succ_of_mod_ne_zero h
    have hne : mantissa (r + 1) ≠ binade ∨ scale (r + 1) = 0 := by
      by_cases hr : r < binade
      · refine Or.inr ?_
        rw [hs, scale, Nat.div_eq_of_lt hr]
      · refine Or.inl ?_
        rw [hm, mantissa, if_neg hr]
        omega
    rw [if_neg (by omega), hs]

theorem lowerMidpoint_succ (r : Nat) : lowerMidpoint (r + 1) = upperMidpoint r := by
  unfold lowerMidpoint upperMidpoint
  rw [quartersBelow_succ, unitsOfRank_succ, quartersAbove]
  omega

theorem quartersAbove_pos (r : Nat) : 0 < quartersAbove r := by
  have := two_pow_pos (scale r)
  unfold quartersAbove
  omega

theorem quartersBelow_pos (r : Nat) : 0 < quartersBelow r := by
  have := two_pow_pos (scale r)
  unfold quartersBelow
  split <;> omega

theorem lowerMidpoint_lt_upperMidpoint (r : Nat) : lowerMidpoint r < upperMidpoint r := by
  have := quartersAbove_pos r
  unfold lowerMidpoint upperMidpoint
  omega

/-- A greater rank lies beyond the upper midpoint, strictly if it is no neighbour. -/
theorem upperMidpoint_le_lowerMidpoint {r s : Nat} (h : r < s) :
    upperMidpoint r ≤ lowerMidpoint s ∧ (r + 1 < s → upperMidpoint r < lowerMidpoint s) := by
  induction s with
  | zero => exact absurd h (Nat.not_lt_zero r)
  | succ s ih =>
    rw [lowerMidpoint_succ]
    rcases Nat.lt_succ_iff_lt_or_eq.mp h with hlt | heq
    · have hle := (ih hlt).1
      have := lowerMidpoint_lt_upperMidpoint s
      exact ⟨by omega, fun _ => by omega⟩
    · rw [heq]
      exact ⟨Nat.le_refl _, fun hgap => by omega⟩

/-! ### The rank that a number rounds to -/

theorem finePerUnit_pos : 0 < finePerUnit := by
  unfold finePerUnit
  -- the exponent is hidden so that nothing computes the power
  generalize 1074 = n
  exact Nat.pow_pos (by decide)

/-- A number that rounds to a rank lies between its midpoints, and on one of them only if the
significand is even. -/
theorem bounds_of_roundsTo {r c : Nat} (h : roundsTo r c = true) :
    lowerMidpoint r * finePerUnit ≤ 4 * c ∧ 4 * c ≤ upperMidpoint r * finePerUnit ∧
      (mantissa r % 2 ≠ 0 →
        lowerMidpoint r * finePerUnit < 4 * c ∧ 4 * c < upperMidpoint r * finePerUnit) := by
  unfold roundsTo at h
  simp only [← lowerMidpoint.eq_def, ← upperMidpoint.eq_def] at h
  split at h
  · rename_i heven
    obtain ⟨hl, hu⟩ := of_decide_eq_true h
    exact ⟨hl, hu, fun hodd => absurd heven hodd⟩
  · obtain ⟨hl, hu⟩ := of_decide_eq_true h
    exact ⟨Nat.le_of_lt hl, Nat.le_of_lt hu, fun _ => ⟨hl, hu⟩⟩

theorem not_roundsTo_of_lt {r s c : Nat} (hr : roundsTo r c = true) (hs : roundsTo s c = true) :
    ¬ r < s := by
  intro h
  obtain ⟨-, hru, hrodd⟩ := bounds_of_roundsTo hr
  obtain ⟨hsl, -, hsodd⟩ := bounds_of_roundsTo hs
  obtain ⟨hle, hlt⟩ := upperMidpoint_le_lowerMidpoint h
  have hmul : upperMidpoint r * finePerUnit ≤ lowerMidpoint s * finePerUnit :=
    Nat.mul_le_mul_right _ hle
  -- the number is the midpoint that the two ranks share, so both significands are even
  have hsucc : s = r + 1 := by
    by_contra hne
    have := Nat.mul_lt_mul_of_pos_right (hlt (by omega)) finePerUnit_pos
    omega
  have hreven : mantissa r % 2 = 0 := by
    by_contra hodd
    have := (hrodd hodd).2
    omega
  have hseven : mantissa s % 2 = 0 := by
    by_contra hodd
    have := (hsodd hodd).1
    omega
  rw [mantissa_mod_two] at hreven hseven
  omega

theorem roundsTo_unique {r s c : Nat} (hr : roundsTo r c = true) (hs : roundsTo s c = true) :
    r = s := by
  have h1 := not_roundsTo_of_lt hr hs
  have h2 := not_roundsTo_of_lt hs hr
  omega

theorem roundsTo_fine (r : Nat) : roundsTo r (fine r) = true := by
  have hbelow := quartersBelow_pos r
  have habove := quartersAbove_pos r
  have hvalue : 4 * fine r = (4 * unitsOfRank r) * finePerUnit := by
    rw [fine, Nat.mul_assoc]
  unfold roundsTo
  simp only [hvalue]
  split
  · exact decide_eq_true ⟨Nat.mul_le_mul_right _ (by omega), Nat.mul_le_mul_right _ (by omega)⟩
  -- an odd significand is positive, so the value lies strictly between its midpoints
  · rename_i hodd
    have hm : 0 < mantissa r := by omega
    have hu : 0 < unitsOfRank r := Nat.mul_pos hm (two_pow_pos _)
    exact decide_eq_true ⟨Nat.mul_lt_mul_of_pos_right (by omega) finePerUnit_pos,
      Nat.mul_lt_mul_of_pos_right (by omega) finePerUnit_pos⟩

theorem roundsTo_zero {r : Nat} (h : unitsOfRank r = 0) : roundsTo r 0 = true := by
  have hfine : fine r = 0 := by rw [fine, h, Nat.zero_mul]
  rw [← hfine]
  exact roundsTo_fine r

/-! ### The shortest decimal -/

/-- A grid answers with a point that rounds to the rank. -/
theorem roundsTo_of_neighbour? {r k a : Nat} (h : neighbour? r k = some a) :
    roundsTo r (a * Nat.pow 10 k) = true := by
  unfold neighbour? at h
  dsimp only at h
  split at h
  · rename_i hlow hhigh
    split at h
    · exact Option.some.inj h ▸ hlow
    · split at h
      · exact Option.some.inj h ▸ hhigh
      · split at h
        · exact Option.some.inj h ▸ hlow
        · exact Option.some.inj h ▸ hhigh
  · rename_i hlow _
    exact Option.some.inj h ▸ hlow
  · rename_i _ hhigh
    exact Option.some.inj h ▸ hhigh
  · exact absurd h (by simp)

theorem roundsTo_shortestFrom (r n : Nat) :
    ∃ a k : Nat, shortestFrom r n = ⟨a, (k : Int) - 1074⟩ ∧ roundsTo r (a * Nat.pow 10 k) = true := by
  induction n with
  -- the finest grid holds the value itself
  | zero =>
    refine ⟨fine r, 0, rfl, ?_⟩
    have hone : fine r * Nat.pow 10 0 = fine r := Nat.mul_one _
    rw [hone]
    exact roundsTo_fine r
  | succ n ih =>
    unfold shortestFrom
    split
    · rename_i a ha
      exact ⟨a, n + 1, rfl, roundsTo_of_neighbour? ha⟩
    · exact ih

/-- The shortest decimal of a rank is a number that rounds to it. -/
theorem roundsTo_shortest (r : Nat) :
    ∃ a k : Nat, shortest r = ⟨a, (k : Int) - 1074⟩ ∧ roundsTo r (a * Nat.pow 10 k) = true := by
  unfold shortest
  split
  · rename_i hzero
    obtain ⟨k, hk⟩ : ∃ k : Nat, (k : Int) - 1074 = 0 := ⟨1074, rfl⟩
    refine ⟨0, k, by rw [hk], ?_⟩
    rw [Nat.zero_mul]
    exact roundsTo_zero hzero
  · exact roundsTo_shortestFrom r _

/-- Ranks whose shortest decimals have one text are one rank. -/
theorem written_shortest_injective {r s : Nat}
    (h : (shortest r).written = (shortest s).written) : r = s := by
  obtain ⟨a, k, hr, hra⟩ := roundsTo_shortest r
  obtain ⟨b, l, hs, hsb⟩ := roundsTo_shortest s
  have hvalue : a * Nat.pow 10 k = b * Nat.pow 10 l := by
    refine Decimal.mul_pow_eq_of_written_eq (p := 1074) ?_
    have hp : ((1074 : Nat) : Int) = 1074 := rfl
    rw [hp, ← hr, ← hs, h]
  rw [← hvalue] at hsb
  exact roundsTo_unique hra hsb

end FrameExport.Double
