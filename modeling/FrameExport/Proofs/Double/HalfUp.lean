import FrameExport.Proofs.Double.Monotone
import FrameExport.Proofs.Double.Value
import Mathlib.Data.Rat.Floor
import Mathlib.Tactic.NormNum

/-!
# Rounding half up

`halfUp` takes the floor of the sum of a double and one half, but that sum is itself rounded to a
double.  Rounding does not take the sum down across an integer, since it keeps the order, and it takes
it up to one in two places only (`PassesInteger`):

* the double next below one half, whose sum with one half lies half way between one and the double next
  below it;
* the odd integers between `2 ^ 52` and `2 ^ 53`, above and below zero, whose sums with one half lie
  half way between two integers.

Everywhere else the nearest integer is found, with halves going up (`halfUp_exact_iff`).

The proof goes by the steps between neighbouring doubles.  One half is counted as `2 ^ k` units.  Where
the steps are at most one half, the sum is exact below zero and nearly so above
(`div_roundUnits_of_fine`); where they are larger the doubles are integers
(`div_roundSignedUnits_of_whole`).
-/

namespace FrameExport.Double

variable {d e k m r t : Nat} {negative : Bool} {x : Double} {q : ℚ}

/-! ### Steps of at most one half -/

/-- A power of two that is odd is one. -/
theorem eq_zero_of_odd_two_pow (h : Nat.pow 2 d % 2 = 1) : d = 0 := by
  cases d with
  | zero => rfl
  | succ d =>
    rw [two_pow_succ] at h
    omega

/-- A significand and a power of two whose sum has one digit too many and ends in a one: half of the
sum is next below a multiple of the power only for the greatest significand and power. -/
theorem eq_of_succ_eq_mul {c : Nat} (hd : d ≤ 53) (hm : m < 2 * binade)
    (hlarge : 2 * binade < m + Nat.pow 2 d) (ht : m + Nat.pow 2 d = 2 * t + 1)
    (hc : t + 1 = Nat.pow 2 d * c) : d = 53 ∧ m = 2 * binade - 1 := by
  have hB : 2 * binade = Nat.pow 2 d * Nat.pow 2 (53 - d) := by
    have hpow : Nat.pow 2 (d + (53 - d)) = Nat.pow 2 d * Nat.pow 2 (53 - d) := Nat.pow_add 2 d (53 - d)
    rw [← hpow, Nat.add_sub_cancel' hd]
    rfl
  have hD := two_pow_pos d
  -- the other power of two is `2 * c - 1`, which is odd
  have hupper : 2 * c < Nat.pow 2 (53 - d) + 2 := by
    by_contra hle
    have hmul := Nat.mul_le_mul_left (Nat.pow 2 d) (Nat.le_of_not_lt hle)
    rw [Nat.mul_add, Nat.mul_left_comm, ← hB, ← hc] at hmul
    omega
  have hlower : Nat.pow 2 (53 - d) < 2 * c := by
    by_contra hle
    have hmul := Nat.mul_le_mul_left (Nat.pow 2 d) (Nat.le_of_not_lt hle)
    rw [Nat.mul_left_comm, ← hB, ← hc] at hmul
    omega
  have hzero := eq_zero_of_odd_two_pow (d := 53 - d) (by omega)
  obtain rfl : d = 53 := by omega
  have hone : Nat.pow 2 (53 - 53) = 1 := rfl
  have hpow : Nat.pow 2 53 = 2 * binade := rfl
  rw [hpow] at hlarge ht hc
  obtain rfl : c = 1 := by omega
  omega

/-- Of the sums that lie half way between two doubles, one is rounded up to an integer. -/
theorem div_roundUnits_of_tie (hd : d ≤ 53) (hm : m < 2 * binade)
    (hlarge : 2 * binade < m + Nat.pow 2 d) (ht : m + Nat.pow 2 d = 2 * t + 1) :
    roundUnits ((2 * t + 1) * Nat.pow 2 e) / (Nat.pow 2 d * Nat.pow 2 (e + 1))
      = (2 * t + 1) * Nat.pow 2 e / (Nat.pow 2 d * Nat.pow 2 (e + 1))
        + if d = 53 ∧ m = 2 * binade - 1 then 1 else 0 := by
  have hB : Nat.pow 2 53 = 2 * binade := rfl
  have hD : Nat.pow 2 d ≤ 2 * binade := hB ▸ two_pow_le hd
  have hquotient : (2 * t + 1) * Nat.pow 2 e / (Nat.pow 2 d * Nat.pow 2 (e + 1))
      = t / Nat.pow 2 d := by
    rw [two_pow_succ, ← Nat.mul_assoc, Nat.mul_div_mul_right _ _ (two_pow_pos e), Nat.mul_comm _ 2,
      ← Nat.div_div_eq_div_mul]
    congr 1
    omega
  have hlast : d = 53 ∧ m = 2 * binade - 1 → t + 1 = Nat.pow 2 d := by
    rintro ⟨rfl, rfl⟩
    omega
  rw [roundUnits_tie (by omega) (by omega), hquotient,
    Nat.mul_div_mul_right _ _ (two_pow_pos (e + 1))]
  rcases Nat.mod_two_eq_zero_or_one t with heven | hodd
  · rw [heven, if_neg]
    · rfl
    · rintro ⟨rfl, rfl⟩
      omega
  · rw [hodd, Nat.succ_div]
    congr 2
    apply propext
    constructor
    · rintro ⟨c, hc⟩
      exact eq_of_succ_eq_mul hd hm hlarge ht hc
    · intro h
      exact (hlast h).symm.dvd

/-- A double below one quarter gives a sum below three quarters, which is not rounded up to one. -/
theorem div_roundUnits_of_small (hk : 0 < k) (hm : m ≤ Nat.pow 2 (k - 1)) :
    roundUnits (m + Nat.pow 2 k) / Nat.pow 2 (k + 1) = 0
      ∧ (m + Nat.pow 2 k) / Nat.pow 2 (k + 1) = 0 := by
  obtain ⟨j, rfl⟩ : ∃ j, k = j + 1 := ⟨k - 1, by omega⟩
  rw [Nat.add_sub_cancel] at hm
  have hpos := two_pow_pos j
  have hsum : m + Nat.pow 2 (j + 1) ≤ 3 * Nat.pow 2 j := by
    rw [two_pow_succ]
    omega
  have hround : roundUnits (m + Nat.pow 2 (j + 1)) ≤ 3 * Nat.pow 2 j := by
    rw [← roundUnits_mul_two_pow (by decide) j]
    exact monotone_roundUnits hsum
  have hone : Nat.pow 2 (j + 1 + 1) = 4 * Nat.pow 2 j := by
    rw [two_pow_succ, two_pow_succ]
    omega
  exact ⟨Nat.div_eq_of_lt (by omega), Nat.div_eq_of_lt (by omega)⟩

/-- The sum of one half and a double with steps of at most one half is rounded up to an integer only if
the double is the one next below one half. -/
theorem div_roundUnits_of_fine (he : e ≤ k) (hk : 0 < k) (hm : m < 2 * binade) :
    roundUnits (m * Nat.pow 2 e + Nat.pow 2 k) / Nat.pow 2 (k + 1)
      = (m * Nat.pow 2 e + Nat.pow 2 k) / Nat.pow 2 (k + 1)
        + if e + 53 = k ∧ m = 2 * binade - 1 then 1 else 0 := by
  obtain ⟨d, rfl⟩ := Nat.exists_eq_add_of_le he
  have hsum : m * Nat.pow 2 e + Nat.pow 2 (e + d) = (m + Nat.pow 2 d) * Nat.pow 2 e := by
    have hhalf : Nat.pow 2 (e + d) = Nat.pow 2 e * Nat.pow 2 d := Nat.pow_add 2 e d
    rw [hhalf]
    ring
  have hB : Nat.pow 2 53 = 2 * binade := rfl
  have hlast : e + 53 = e + d ↔ d = 53 := by omega
  simp only [hlast]
  by_cases hd : d ≤ 53
  · rw [hsum]
    by_cases hexact : m + Nat.pow 2 d ≤ 2 * binade
    · rw [roundUnits_mul_two_pow hexact, if_neg]
      · rfl
      · rintro ⟨rfl, rfl⟩
        omega
    · have hD : Nat.pow 2 d ≤ 2 * binade := hB ▸ two_pow_le hd
      obtain ⟨t, ht | ht⟩ := Nat.even_or_odd' (m + Nat.pow 2 d)
      -- a last digit of zero is not needed
      · have hsum' : (m + Nat.pow 2 d) * Nat.pow 2 e = t * Nat.pow 2 (e + 1) := by
          rw [ht, two_pow_succ]
          ring
        rw [hsum', roundUnits_mul_two_pow (by omega), if_neg]
        · rfl
        · rintro ⟨rfl, rfl⟩
          omega
      · have hone : Nat.pow 2 (e + d + 1) = Nat.pow 2 d * Nat.pow 2 (e + 1) := by
          rw [Nat.add_assoc, Nat.add_comm, Nat.add_assoc, Nat.add_comm 1]
          exact Nat.pow_add 2 d (e + 1)
        rw [ht, hone]
        exact div_roundUnits_of_tie hd hm (by omega) ht
  · have hquarter : m * Nat.pow 2 e ≤ Nat.pow 2 (e + d - 1) := by
      have hpow : Nat.pow 2 (53 + e) = Nat.pow 2 53 * Nat.pow 2 e := Nat.pow_add 2 53 e
      calc m * Nat.pow 2 e ≤ Nat.pow 2 53 * Nat.pow 2 e := Nat.mul_le_mul_right _ (by omega)
        _ = Nat.pow 2 (53 + e) := hpow.symm
        _ ≤ Nat.pow 2 (e + d - 1) := two_pow_le (by omega)
    obtain ⟨hround, hsmall⟩ := div_roundUnits_of_small hk hquarter
    rw [hround, hsmall, if_neg (by omega)]

/-- Below zero the sum with one half is exact, or lies between zero and one half. -/
theorem div_roundSignedUnits_of_fine (he : e ≤ k) (hm : m < 2 * binade) :
    roundSignedUnits (-(m * Nat.pow 2 e : Nat) + (Nat.pow 2 k : Nat)) / (Nat.pow 2 (k + 1) : Nat)
      = (-(m * Nat.pow 2 e : Nat) + (Nat.pow 2 k : Nat)) / (Nat.pow 2 (k + 1) : Nat) := by
  by_cases hsmall : m * Nat.pow 2 e ≤ Nat.pow 2 k
  · obtain ⟨n, hn⟩ := Nat.exists_eq_add_of_le hsmall
    have hsum : -((m * Nat.pow 2 e : Nat) : Int) + (Nat.pow 2 k : Nat) = (n : Int) := by omega
    have hround : roundUnits n ≤ Nat.pow 2 k := by
      have hmono := monotone_roundUnits (show n ≤ 1 * Nat.pow 2 k by omega)
      rwa [roundUnits_mul_two_pow (by decide), Nat.one_mul] at hmono
    have hone := two_pow_succ k
    have hpos := two_pow_pos k
    rw [hsum, roundSignedUnits_natCast, ← Int.natCast_ediv, ← Int.natCast_ediv,
      Nat.div_eq_of_lt (by omega), Nat.div_eq_of_lt (by omega)]
  · obtain ⟨d, rfl⟩ := Nat.exists_eq_add_of_le he
    have hhalf : Nat.pow 2 (e + d) = Nat.pow 2 d * Nat.pow 2 e :=
      (Nat.pow_add 2 e d).trans (Nat.mul_comm _ _)
    have hsum : -((m * Nat.pow 2 e : Nat) : Int) + (Nat.pow 2 (e + d) : Nat)
        = -(((m - Nat.pow 2 d) * Nat.pow 2 e : Nat) : Int) := by
      rw [Nat.sub_mul, ← hhalf]
      omega
    rw [hsum, roundSignedUnits_neg, roundSignedUnits_natCast, roundUnits_mul_two_pow (by omega)]

/-! ### Integers -/

/-- One half more does not change the quotient of a multiple of one. -/
theorem add_half_div_one (j : Int) (k : Nat) :
    (j * (Nat.pow 2 (k + 1) : Nat) + (Nat.pow 2 k : Nat)) / (Nat.pow 2 (k + 1) : Nat) = j := by
  have hpos := two_pow_pos k
  have hone := two_pow_succ k
  rw [Int.add_comm, Int.add_mul_ediv_right _ _ (by omega), ← Int.natCast_ediv,
    Nat.div_eq_of_lt (by omega)]
  simp

theorem exists_mul_two_pow_eq (he : k < e) (m : Nat) :
    ∃ c, m * Nat.pow 2 e = c * Nat.pow 2 (k + 1) := by
  obtain ⟨j, rfl⟩ := Nat.exists_eq_add_of_le (show k + 1 ≤ e from he)
  have hpow : Nat.pow 2 (k + 1 + j) = Nat.pow 2 (k + 1) * Nat.pow 2 j := Nat.pow_add 2 (k + 1) j
  exact ⟨m * Nat.pow 2 j, by rw [hpow]; ring⟩

/-- The sum of one half and a positive integer with steps of at least one is rounded up to the next
integer if the integer is odd and the steps are one. -/
theorem div_roundUnits_of_whole (he : k < e) (hnormal : binade ≤ m) (hm : m < 2 * binade) :
    roundUnits (m * Nat.pow 2 e + Nat.pow 2 k) / Nat.pow 2 (k + 1)
      = (m * Nat.pow 2 e + Nat.pow 2 k) / Nat.pow 2 (k + 1)
        + if e = k + 1 ∧ m % 2 = 1 then 1 else 0 := by
  have hpos := two_pow_pos (k + 1)
  have hone := two_pow_succ k
  obtain ⟨c, hc⟩ := exists_mul_two_pow_eq he m
  have hquotient : (c * Nat.pow 2 (k + 1) + Nat.pow 2 k) / Nat.pow 2 (k + 1) = c := by
    exact_mod_cast add_half_div_one c k
  rcases Nat.eq_or_lt_of_le (show k + 1 ≤ e from he) with rfl | hcoarse
  · obtain rfl : m = c := Nat.eq_of_mul_eq_mul_right hpos hc
    have hsum : m * Nat.pow 2 (k + 1) + Nat.pow 2 k = (2 * m + 1) * Nat.pow 2 k := by
      rw [hone]
      ring
    rw [hquotient, hsum, roundUnits_tie hnormal hm, Nat.mul_div_cancel _ hpos]
    rcases Nat.mod_two_eq_zero_or_one m with h | h
    · simp [h]
    · simp [h]
  · have hstep : Nat.pow 2 (k + 1 + 1) ≤ Nat.pow 2 e := two_pow_le hcoarse
    rw [two_pow_succ] at hstep
    have hround : roundUnits (m * Nat.pow 2 e + Nat.pow 2 k) = m * Nat.pow 2 e :=
      roundUnits_of_near hnormal hm (by omega) (by omega)
    rw [hround, hc, hquotient, Nat.mul_div_cancel _ hpos, if_neg (by omega)]
    rfl

/-- The same below zero. -/
theorem div_roundSignedUnits_of_whole (he : k < e) (hnormal : binade ≤ m) (hm : m < 2 * binade) :
    roundSignedUnits (-(m * Nat.pow 2 e : Nat) + (Nat.pow 2 k : Nat)) / (Nat.pow 2 (k + 1) : Nat)
      = (-(m * Nat.pow 2 e : Nat) + (Nat.pow 2 k : Nat)) / (Nat.pow 2 (k + 1) : Nat)
        + if e = k + 1 ∧ m % 2 = 1 then 1 else 0 := by
  have hpos := two_pow_pos (k + 1)
  have hone := two_pow_succ k
  obtain ⟨c, hc⟩ := exists_mul_two_pow_eq he m
  have hhalf : Nat.pow 2 k ≤ m * Nat.pow 2 e :=
    (two_pow_le he.le).trans (Nat.le_mul_of_pos_left _ (binade_pos.trans_le hnormal))
  obtain ⟨n, hn⟩ := Nat.exists_eq_add_of_le hhalf
  have hsum : -((m * Nat.pow 2 e : Nat) : Int) + (Nat.pow 2 k : Nat) = -(n : Int) := by omega
  have hquotient : -(n : Int) / (Nat.pow 2 (k + 1) : Nat) = -(c : Int) := by
    rw [← add_half_div_one (-c) k, Int.neg_mul, ← Int.natCast_mul, ← hc, hsum]
  have hwhole : ∀ i : Nat, -((i * Nat.pow 2 (k + 1) : Nat) : Int) / (Nat.pow 2 (k + 1) : Nat) = -i := by
    intro i
    rw [Int.natCast_mul, ← Int.neg_mul, Int.mul_ediv_cancel _ (by omega)]
  rw [hsum, hquotient, roundSignedUnits_neg, roundSignedUnits_natCast]
  rcases Nat.eq_or_lt_of_le (show k + 1 ≤ e from he) with rfl | hcoarse
  · obtain rfl : m = c := Nat.eq_of_mul_eq_mul_right hpos hc
    obtain ⟨t, rfl⟩ : ∃ t, m = t + 1 := ⟨m - 1, by have := binade_pos; omega⟩
    have hdigits : n = (2 * t + 1) * Nat.pow 2 k := by
      rw [Nat.add_mul, hone] at hn
      rw [Nat.add_mul, Nat.mul_comm 2, Nat.mul_assoc]
      omega
    -- the steps below the least significand are finer, so that the sum is exact there
    rcases Nat.eq_or_lt_of_le hnormal with hleast | hlarge
    · have heven := binade_even
      rw [hdigits, roundUnits_mul_two_pow (by omega), ← hdigits, hquotient, if_neg (by omega)]
      simp
    · rw [hdigits, roundUnits_tie (by omega) (by omega), hwhole]
      split <;> omega
  · have hstep : Nat.pow 2 (k + 1 + 1) ≤ Nat.pow 2 e := two_pow_le hcoarse
    rw [two_pow_succ] at hstep
    have hround : roundUnits n = m * Nat.pow 2 e :=
      roundUnits_of_near hnormal hm (by omega) (by omega)
    rw [hround, hc, hwhole, if_neg (by omega)]
    simp

/-! ### All doubles -/

/-- The sum of one half and the double of this sign and rank is rounded up to the next integer. -/
def RoundedUp (k : Nat) (negative : Bool) (r : Nat) : Prop :=
  negative = false ∧ scale r + 53 = k ∧ mantissa r = 2 * binade - 1
    ∨ scale r = k + 1 ∧ mantissa r % 2 = 1

instance (k : Nat) (negative : Bool) (r : Nat) : Decidable (RoundedUp k negative r) :=
  inferInstanceAs (Decidable (_ ∨ _))

/-- The floor of the rounded sum with one half is that of the sum itself or the next integer. -/
theorem div_roundSignedUnits (hk : 0 < k) (negative : Bool) (r : Nat) :
    roundSignedUnits (signedUnits negative r + (Nat.pow 2 k : Nat)) / (Nat.pow 2 (k + 1) : Nat)
      = (signedUnits negative r + (Nat.pow 2 k : Nat)) / (Nat.pow 2 (k + 1) : Nat)
        + if RoundedUp k negative r then 1 else 0 := by
  have hm := mantissa_lt r
  unfold RoundedUp signedUnits unitsOfRank
  cases negative with
  | false =>
    simp only [Bool.false_eq_true, if_false, true_and]
    rw [← Int.natCast_add, roundSignedUnits_natCast, ← Int.natCast_ediv, ← Int.natCast_ediv]
    rcases Nat.lt_or_ge k (scale r) with hwhole | hfine
    · rw [div_roundUnits_of_whole hwhole (binade_le_mantissa (by omega)) hm]
      split_ifs <;> omega
    · rw [div_roundUnits_of_fine hfine hk hm]
      split_ifs <;> omega
  | true =>
    simp only [if_true, Bool.true_eq_false, false_and, false_or]
    rcases Nat.lt_or_ge k (scale r) with hwhole | hfine
    · exact div_roundSignedUnits_of_whole hwhole (binade_le_mantissa (by omega)) hm
    · rw [div_roundSignedUnits_of_fine hfine hm, if_neg (by omega)]
      simp

/-- Where the sum with one half is rounded up to the next integer. -/
def PassesInteger (q : ℚ) : Prop :=
  q = 1 / 2 - 1 / 2 ^ 54 ∨ ∃ n : Int, Odd n ∧ 2 ^ 52 < |n| ∧ |n| < 2 ^ 53 ∧ q = n

theorem binade_eq : binade = 4503599627370496 := rfl

/-- The double next below one half, as a number of units. -/
theorem eq_belowHalf_iff {s : Int} (j : Nat) :
    (s : ℚ) / (Nat.pow 2 (j + 53 + 1) : Nat) = 1 / 2 - 1 / 2 ^ 54
      ↔ s = ((2 * binade - 1) * Nat.pow 2 j : Nat) := by
  have hpow : Nat.pow 2 (j + 53 + 1) = Nat.pow 2 j * 18014398509481984 := Nat.pow_add 2 j 54
  have hlast : 2 * binade - 1 = 9007199254740991 := by rw [binade_eq]
  have hpos := two_pow_pos j
  rw [hpow, hlast]
  -- the power is hidden so that nothing computes it
  generalize Nat.pow 2 j = step at hpos
  have hden : ((step * 18014398509481984 : Nat) : ℚ) ≠ 0 := Nat.cast_ne_zero.mpr (by omega)
  have hvalue : (1 / 2 - 1 / 2 ^ 54 : ℚ) * ((step * 18014398509481984 : Nat) : ℚ)
      = ((9007199254740991 * step : Nat) : ℚ) := by
    push_cast
    ring
  rw [div_eq_iff hden, hvalue, ← Int.cast_natCast, Int.cast_inj]

theorem passesInteger_iff (hk : 53 ≤ k) :
    PassesInteger ((signedUnits negative r : ℚ) / (Nat.pow 2 (k + 1) : Nat))
      ↔ RoundedUp k negative r := by
  obtain ⟨j, rfl⟩ := Nat.exists_eq_add_of_le' hk
  have hpos := two_pow_pos (j + 53 + 1)
  have hone : ((Nat.pow 2 (j + 53 + 1) : Nat) : ℚ) ≠ 0 := Nat.cast_ne_zero.mpr hpos.ne'
  have hB := binade_eq
  rw [PassesInteger, RoundedUp, eq_belowHalf_iff]
  apply or_congr
  · constructor
    · intro h
      have hvalue : 0 < (2 * binade - 1) * Nat.pow 2 j := Nat.mul_pos (by omega) (two_pow_pos j)
      cases negative with
      | true =>
        rw [signedUnits, if_pos rfl] at h
        omega
      | false =>
        obtain ⟨hscale, hmantissa⟩ := scale_and_mantissa_of_unitsOfRank (m := 2 * binade - 1)
          (by omega) (Or.inr (by omega)) (Int.ofNat.inj h)
        exact ⟨rfl, by omega, hmantissa⟩
    · rintro ⟨rfl, hscale, hmantissa⟩
      obtain rfl : scale r = j := by omega
      rw [← hmantissa]
      rfl
  · constructor
    · rintro ⟨n, hodd, hlow, hhigh, hn⟩
      rw [div_eq_iff hone] at hn
      have hunits : signedUnits negative r = n * (Nat.pow 2 (j + 53 + 1) : Nat) := by exact_mod_cast hn
      have hmagnitude : unitsOfRank r = n.natAbs * Nat.pow 2 (j + 53 + 1) := by
        rw [← natAbs_signedUnits negative, hunits, Int.natAbs_mul, Int.natAbs_natCast]
      rw [Int.abs_eq_natAbs] at hlow hhigh
      obtain ⟨hscale, hmantissa⟩ := scale_and_mantissa_of_unitsOfRank (by omega) (Or.inr (by omega))
        hmagnitude
      rw [Int.odd_iff] at hodd
      exact ⟨hscale, by omega⟩
    · rintro ⟨hscale, hodd⟩
      have hnormal := binade_le_mantissa (r := r) (by omega)
      have hm := mantissa_lt r
      have hunits : unitsOfRank r = mantissa r * Nat.pow 2 (j + 53 + 1) := by
        rw [unitsOfRank, hscale]
      obtain ⟨n, hn, hmagnitude⟩ : ∃ n : Int, signedUnits negative r
          = n * (Nat.pow 2 (j + 53 + 1) : Nat) ∧ n.natAbs = mantissa r := by
        cases negative with
        | true => exact ⟨-(mantissa r : Int), by rw [signedUnits, if_pos rfl, hunits]; push_cast; ring,
            by omega⟩
        | false => exact ⟨mantissa r, by rw [signedUnits, if_neg (by simp), hunits]; push_cast; ring,
            by omega⟩
      have heven := binade_even
      refine ⟨n, ?_, ?_, ?_, ?_⟩
      · rw [Int.odd_iff]
        omega
      · rw [Int.abs_eq_natAbs]
        omega
      · rw [Int.abs_eq_natAbs]
        omega
      · rw [div_eq_iff hone, hn]
        push_cast
        rfl

theorem unitsPerOne_eq (hk : k + 1 = 1074) : unitsPerOne = Nat.pow 2 (k + 1) := by
  unfold unitsPerOne
  rw [← hk]

theorem units?_half (hk : k + 1 = 1074) : units? half = some ((Nat.pow 2 k : Nat) : Int) := by
  obtain rfl : k = 1073 := by omega
  decide +kernel

/-- The sum of one half and a finite double is finite. -/
theorem isFinite_add_half (negative : Bool) (r : Fin rankCount) :
    (finite negative r + half).isFinite = true := by
  obtain ⟨k, top, hk, htop⟩ : ∃ k top, k + 1 = 1074 ∧ top = 2045 := ⟨1073, _, rfl, rfl⟩
  have hhalf := units?_half hk
  generalize half = y at hhalf
  cases y with
  | nan => cases hhalf
  | infinite t => cases hhalf
  | finite t b =>
    rw [add_finite, Option.some.inj hhalf, ofSignedUnits, isFinite_ofUnits_iff]
    have hle : unitsOfRank r ≤ unitsOfRank (rankCount - 1) :=
      strictMono_unitsOfRank.monotone (Nat.le_sub_one_of_lt r.isLt)
    have hlast : scale (rankCount - 1) = top := by
      rw [htop]
      decide +kernel
    have hsum := Int.natAbs_add_le (signedUnits negative r) (Nat.pow 2 k : Nat)
    have hsmall : Nat.pow 2 (k + 2) ≤ Nat.pow 2 top := two_pow_le (by omega)
    have hpos := two_pow_pos top
    rw [natAbs_signedUnits, Int.natAbs_natCast] at hsum
    rw [two_pow_succ, two_pow_succ] at hsmall
    rw [upperMidpoint, quartersAbove, hlast]
    omega

/-- A finite double is rounded to the floor of its rounded sum with one half. -/
theorem halfUp_of_units? {n : Int} (hk : k + 1 = 1074) (h : x.units? = some n) :
    x.halfUp = .ok (roundSignedUnits (n + (Nat.pow 2 k : Nat)) / (Nat.pow 2 (k + 1) : Nat)) := by
  cases x with
  | nan => cases h
  | infinite s => cases h
  | finite s r =>
    have hsum := units?_add h (units?_half hk) (isFinite_add_half s r)
    rw [halfUp, ← unitsPerOne_eq hk]
    generalize finite s r + half = y at hsum
    cases y with
    | nan => cases hsum
    | infinite t => cases hsum
    | finite t a => rw [floor, Option.some.inj hsum]

/-- The floor of the exact sum with one half. -/
theorem floor_add_half (n : Int) (k : Nat) :
    ⌊(n : ℚ) / (Nat.pow 2 (k + 1) : Nat) + 1 / 2⌋
      = (n + (Nat.pow 2 k : Nat)) / (Nat.pow 2 (k + 1) : Nat) := by
  have hpos : ((Nat.pow 2 k : Nat) : ℚ) ≠ 0 := Nat.cast_ne_zero.mpr (two_pow_pos k).ne'
  rw [← Rat.floor_intCast_div_natCast, two_pow_succ]
  congr 1
  push_cast
  field_simp

/-- **Rounding half up.**  Every finite double is rounded to an integer.  It is the nearest one, with
halves going up, exactly where the sum with one half is not rounded up to the next integer; there it is
one more. -/
theorem halfUp_exact_iff (h : x.rational? = some q) :
    ∃ n : Int, x.halfUp = .ok n
      ∧ (((n : ℚ) ≤ q + 1 / 2 ∧ q + 1 / 2 < n + 1) ↔ ¬ PassesInteger q)
      ∧ (PassesInteger q → n = ⌊q + 1 / 2⌋ + 1) := by
  obtain ⟨k, hk⟩ : ∃ k, k + 1 = 1074 := ⟨1073, rfl⟩
  cases x with
  | nan => cases h
  | infinite s => cases h
  | finite negative r =>
    have hq : q = (signedUnits negative r : ℚ) / (Nat.pow 2 (k + 1) : Nat) := by
      rw [← unitsPerOne_eq hk]
      exact (Option.some.inj h).symm
    have hpasses : PassesInteger q ↔ RoundedUp k negative r := by
      rw [hq]
      exact passesInteger_iff (by omega)
    have hhalfUp : (finite negative r).halfUp
        = .ok (⌊q + 1 / 2⌋ + if RoundedUp k negative r then 1 else 0) := by
      rw [halfUp_of_units? hk rfl, div_roundSignedUnits (by omega), hq, floor_add_half]
    refine ⟨_, hhalfUp, ?_, ?_⟩
    · rw [hpasses, ← Int.floor_eq_iff]
      split
      case isTrue hup => exact iff_of_false (by omega) (not_not_intro hup)
      case isFalse hnot => exact iff_of_true (by omega) hnot
    · intro hup
      rw [if_pos (hpasses.mp hup)]

/-- The odd integer next above `2 ^ 52`. -/
def oddInteger : Double := .finite false ⟨1075 * binade + 1, by decide⟩

/-- The odd integer next above `2 ^ 52` is rounded to the even one above it. -/
theorem halfUp_oddInteger : oddInteger.rational? = some 4503599627370497
    ∧ oddInteger.halfUp = .ok 4503599627370498 := by
  have hunits : oddInteger.units? = some (4503599627370497 * (unitsPerOne : Int)) := by decide +kernel
  have hvalue : oddInteger.rational? = some 4503599627370497 := by
    rw [rational?, hunits, Option.map_some, Int.cast_mul, Int.cast_natCast,
      mul_div_cancel_right₀ _ cast_unitsPerOne_ne_zero]
    norm_num
  have hpasses : PassesInteger 4503599627370497 :=
    Or.inr ⟨4503599627370497, by decide, by norm_num, by norm_num, by norm_num⟩
  obtain ⟨n, hn, -, hsucc⟩ := halfUp_exact_iff hvalue
  refine ⟨hvalue, ?_⟩
  rw [hn, hsucc hpasses]
  norm_num

/-- The double next below one half. -/
def belowHalf : Double := .finite false ⟨1022 * binade - 1, by decide⟩

/-- The double next below one half is rounded to one, though one is not the nearest integer. -/
theorem halfUp_belowHalf : belowHalf.rational? = some (1 / 2 - 1 / 2 ^ 54)
    ∧ belowHalf.halfUp = .ok 1
    ∧ ¬ ∃ n : Int, belowHalf.halfUp = .ok n
      ∧ (n : ℚ) ≤ (1 / 2 - 1 / 2 ^ 54) + 1 / 2 ∧ (1 / 2 - 1 / 2 ^ 54 : ℚ) + 1 / 2 < n + 1 := by
  have hone : belowHalf.halfUp = .ok 1 := by decide +kernel
  obtain ⟨j, hj⟩ : ∃ j, j = 1020 := ⟨_, rfl⟩
  have hunits : belowHalf.units? = some (((2 * binade - 1) * Nat.pow 2 j : Nat) : Int) := by
    subst hj
    decide +kernel
  refine ⟨?_, hone, ?_⟩
  · rw [rational?, hunits, Option.map_some, unitsPerOne_eq (k := j + 53) (by omega),
      (eq_belowHalf_iff j).mpr rfl]
  · rintro ⟨n, hn, hle, -⟩
    obtain rfl : n = 1 := Except.ok.inj (hn.symm.trans hone)
    norm_num at hle

end FrameExport.Double
