import FrameExport.Proofs.Decimal.Value
import FrameExport.Proofs.Double.Exact

/-!
# Doubles as rational numbers

The value of a finite double is a rational number (`rational?`), and it determines the double up to
the sign of zero.  A double is written in style sheets with all its digits if its value is an integer
(`integer?_eq_some_iff`) and by its shortest decimal otherwise.  That decimal determines the rank
(`value_shortest_injective`), and it is no integer, because an integer that rounds to a rank is the
value of the rank as soon as the steps between ranks are smaller than one
(`dvd_unitsOfRank_of_roundsTo`).
-/

namespace FrameExport.Double

variable {x : Double} {n : Int} {m p r s : Nat}

/-- The value of a finite double. -/
def rational? (x : Double) : Option ℚ := x.units?.map fun n : Int => (n : ℚ) / (unitsPerOne : ℚ)

theorem unitsPerOne_pos : 0 < unitsPerOne := by
  unfold unitsPerOne
  -- the exponent is hidden so that nothing computes the power
  generalize 1074 = n
  exact two_pow_pos n

theorem cast_unitsPerOne_ne_zero : (unitsPerOne : ℚ) ≠ 0 :=
  Nat.cast_ne_zero.mpr unitsPerOne_pos.ne'

theorem cast_ten_pow_ne_zero (p : Nat) : ((10 ^ p : Nat) : ℚ) ≠ 0 :=
  Nat.cast_ne_zero.mpr (ten_pow_pos p).ne'

theorem unitsOfRank_injective : Function.Injective unitsOfRank :=
  Function.LeftInverse.injective (g := fun units => nearestRank units 1) nearestRank_unitsOfRank

/-! ### Integers -/

theorem integer?_finite_eq_some_iff {negative : Bool} {r : Fin rankCount} :
    (finite negative r).integer? = some n ↔ signedUnits negative r = n * unitsPerOne := by
  have hdvd : unitsOfRank r % unitsPerOne = 0 ↔ (unitsPerOne : Int) ∣ signedUnits negative r := by
    rw [Int.natCast_dvd, natAbs_signedUnits, Nat.dvd_iff_mod_eq_zero]
  have hpos : (unitsPerOne : Int) ≠ 0 := Int.natCast_ne_zero.mpr unitsPerOne_pos.ne'
  rw [integer?]
  constructor
  · intro h
    split_ifs at h with hwhole
    rw [← Option.some.inj h, Int.ediv_mul_cancel (hdvd.mp hwhole)]
  · intro h
    rw [if_pos (hdvd.mpr (Dvd.intro_left n h.symm)), h, Int.mul_ediv_cancel _ hpos]

/-- A double is written as an integer exactly if its value is one. -/
theorem integer?_eq_some_iff : x.integer? = some n ↔ x.rational? = some (n : ℚ) := by
  cases x with
  | nan => exact iff_of_false nofun nofun
  | infinite negative => exact iff_of_false nofun nofun
  | finite negative r =>
    rw [integer?_finite_eq_some_iff, rational?, units?, Option.map_some, Option.some.injEq,
      div_eq_iff cast_unitsPerOne_ne_zero]
    exact_mod_cast Iff.rfl

theorem writePlain_of_integer? (h : x.integer? = some n) : x.writePlain = intDigits n := by
  unfold writePlain
  rw [h]

theorem writePlain_of_integer?_eq_none {negative : Bool} {r : Fin rankCount}
    (h : (finite negative r).integer? = none) :
    (finite negative r).writePlain = signed negative ((shortest r).positional []) := by
  unfold writePlain
  rw [h]

/-! ### Shortest decimals -/

/-- The shortest decimal of a rank, over the finest unit.  The exponent is given by a name, so that
nothing computes the power. -/
theorem exists_value_shortest (r : Nat) (hp : p = 1074) :
    ∃ c : Nat, (shortest r).value = (c : ℚ) / ((10 ^ p : Nat) : ℚ) ∧ roundsTo r c = true := by
  obtain ⟨a, k, hshortest, hrounds⟩ := roundsTo_shortest r
  refine ⟨a * 10 ^ k, ?_, hrounds⟩
  have hcast : (1074 : Int) = (p : Int) := by rw [hp]; rfl
  rw [hshortest, hcast, Decimal.value_mk_sub]

/-- The shortest decimal determines the rank. -/
theorem value_shortest_injective (h : (shortest r).value = (shortest s).value) : r = s := by
  obtain ⟨p, hp⟩ : ∃ p, p = 1074 := ⟨_, rfl⟩
  obtain ⟨c, hc, hrc⟩ := exists_value_shortest r hp
  obtain ⟨d, hd, hsd⟩ := exists_value_shortest s hp
  rw [hc, hd, div_left_inj' (cast_ten_pow_ne_zero p), Nat.cast_inj] at h
  subst h
  exact roundsTo_unique hrc hsd

/-- Of the multiples of a step, only the value itself lies between the midpoints of a rank. -/
theorem eq_of_between_midpoints {a b step : Nat} (hstep : 0 < step)
    (hlow : 4 * (a * step) ≤ 4 * (b * step) + 2 * step)
    (hhigh : 4 * (b * step) ≤ 4 * (a * step) + 2 * step) : a = b := by
  have hle : ∀ {c d : Nat}, 4 * (c * step) ≤ 4 * (d * step) + 2 * step → c ≤ d := by
    intro c d h
    by_contra hlt
    have hnext : (d + 1) * step ≤ c * step := Nat.mul_le_mul_right step (by omega)
    rw [Nat.add_mul, Nat.one_mul] at hnext
    omega
  exact Nat.le_antisymm (hle hlow) (hle hhigh)

/-- A rank that an integer rounds to has an integer as its value. -/
theorem dvd_unitsOfRank_of_roundsTo (h : roundsTo r (m * unitsPerOne * finePerUnit) = true) :
    unitsPerOne ∣ unitsOfRank r := by
  obtain ⟨p, hp⟩ : ∃ p, p = 1074 := ⟨_, rfl⟩
  have hone : unitsPerOne = Nat.pow 2 p := by
    unfold unitsPerOne
    rw [← hp]
  rcases Nat.le_total p (scale r) with hlarge | hsmall
  -- the steps are multiples of one
  · rw [hone]
    exact Dvd.dvd.mul_left (Nat.pow_dvd_pow 2 hlarge) _
  -- they divide one, so that an integer is a multiple of the step
  · obtain ⟨steps, hsteps⟩ : Nat.pow 2 (scale r) ∣ unitsPerOne := hone ▸ Nat.pow_dvd_pow 2 hsmall
    obtain ⟨hlow, hhigh, -⟩ := bounds_of_roundsTo h
    rw [← Nat.mul_assoc] at hlow hhigh
    have hlow' := Nat.le_of_mul_le_mul_right hlow finePerUnit_pos
    have hhigh' := Nat.le_of_mul_le_mul_right hhigh finePerUnit_pos
    have hbelow : quartersBelow r ≤ 2 * Nat.pow 2 (scale r) := by
      unfold quartersBelow
      split <;> omega
    have hinteger : m * unitsPerOne = m * steps * Nat.pow 2 (scale r) := by
      rw [hsteps]
      ring
    unfold lowerMidpoint at hlow'
    unfold upperMidpoint quartersAbove at hhigh'
    rw [hinteger] at hlow' hhigh'
    have hvalue : mantissa r = m * steps := by
      unfold unitsOfRank at hlow' hhigh'
      exact eq_of_between_midpoints (two_pow_pos (scale r)) (by omega) hhigh'
    refine ⟨m, ?_⟩
    rw [unitsOfRank, hvalue, ← hinteger, Nat.mul_comm]

/-- The shortest decimal of a rank is an integer only if the value of the rank is. -/
theorem dvd_unitsOfRank_of_value_shortest (h : (shortest r).value = m) :
    unitsPerOne ∣ unitsOfRank r := by
  obtain ⟨p, hp⟩ : ∃ p, p = 1074 := ⟨_, rfl⟩
  obtain ⟨c, hc, hrounds⟩ := exists_value_shortest r hp
  have hvalue : c = m * 10 ^ p := by
    rw [hc, div_eq_iff (cast_ten_pow_ne_zero p)] at h
    exact_mod_cast h
  have hunit : (10 : Nat) ^ p = unitsPerOne * finePerUnit := (unitsPerOne_mul_finePerUnit hp).symm
  rw [hvalue, hunit, ← Nat.mul_assoc] at hrounds
  exact dvd_unitsOfRank_of_roundsTo hrounds

/-! ### Doubles that are no integers -/

theorem negated_value_shortest_ne {negative : Bool} {r : Fin rankCount}
    (h : (finite negative r).integer? = none) (n : Int) :
    negated negative (shortest r).value ≠ n := by
  intro heq
  have habs : (shortest r).value = (n.natAbs : ℚ) := by
    have hnonneg := (shortest r).value_nonneg
    rw [Nat.cast_natAbs, Int.cast_abs, ← heq, negated]
    split
    · rw [abs_neg, abs_of_nonneg hnonneg]
    · rw [abs_of_nonneg hnonneg]
  have hwhole := Nat.mod_eq_zero_of_dvd (dvd_unitsOfRank_of_value_shortest habs)
  rw [integer?, if_pos hwhole] at h
  cases h

/-- The form without exponent denotes what the form of messages does. -/
theorem value?_writePlain_of_integer?_eq_none {negative : Bool} {r : Fin rankCount}
    (h : (finite negative r).integer? = none) :
    Numeral.value? (finite negative r).writePlain = some (negated negative (shortest r).value)
      ∧ Numeral.value? ((finite negative r).write .short)
        = some (negated negative (shortest r).value) := by
  rw [writePlain_of_integer?_eq_none h]
  exact ⟨(shortest r).value?_signed_positional negative, (shortest r).value?_signed_written negative⟩

/-- Doubles that are no integers have one text only if they are one double. -/
theorem eq_of_writePlain_eq {negative negative' : Bool} {r s : Fin rankCount}
    (hr : (finite negative r).integer? = none) (hs : (finite negative' s).integer? = none)
    (h : (finite negative r).writePlain = (finite negative' s).writePlain) :
    finite negative r = finite negative' s := by
  rw [writePlain_of_integer?_eq_none hr, writePlain_of_integer?_eq_none hs] at h
  obtain ⟨c, cs, hrtext, hc⟩ := Decimal.head_positional [] (shortest r)
  obtain ⟨d, ds, hstext, hd⟩ := Decimal.head_positional [] (shortest s)
  rw [hrtext, hstext] at h
  obtain ⟨rfl, hdigits⟩ := signed_inj (ne_of_isDigit hc (by decide)) (ne_of_isDigit hd (by decide)) h
  have hvalue : (shortest r).value = (shortest s).value := by
    have hrvalue := (shortest r).value?_signed_positional false
    have hsvalue := (shortest s).value?_signed_positional false
    rw [hrtext, hdigits, ← hstext, hsvalue] at hrvalue
    exact (Option.some.inj hrvalue).symm
  rw [Fin.ext (value_shortest_injective hvalue)]

/-- Doubles of one value that is no integer are one double, since their sign counts. -/
theorem eq_of_rational?_eq {negative negative' : Bool} {r s : Fin rankCount}
    (hr : (finite negative r).integer? = none)
    (h : (finite negative r).rational? = (finite negative' s).rational?) :
    finite negative r = finite negative' s := by
  have hunits : signedUnits negative r = signedUnits negative' s :=
    Int.cast_inj.mp ((div_left_inj' cast_unitsPerOne_ne_zero).mp (Option.some.inj h))
  have hrank : r = s := by
    apply Fin.ext
    apply unitsOfRank_injective
    rw [← natAbs_signedUnits negative, hunits, natAbs_signedUnits]
  subst hrank
  by_cases hsign : negative = negative'
  · rw [hsign]
  -- only zero is its own opposite
  · obtain rfl : negative' = !negative := (Bool.not_eq.mpr hsign).symm
    rw [signedUnits_not] at hunits
    have hzero : signedUnits negative r = 0 * unitsPerOne := by omega
    rw [integer?_finite_eq_some_iff.mpr hzero] at hr
    cases hr

end FrameExport.Double
