import FrameExport.Proofs.Double.Nearest

/-!
# Written doubles read back

A decimal that rounds to a rank is read as the double of that rank (`toDouble_of_roundsTo`), however
many zeros were moved from its exponent into its coefficient.  So the text of a finite double denotes
a decimal that is read as the double itself (`exists_decimal?_written_shortest`).

The exponents for which the power of ten is not formed cause no difference: a decimal with so large
an exponent lies beyond every midpoint, and one with so small an exponent below the first.
-/

namespace FrameExport.Double

variable {a c e j k r num num' den den' : Nat}

/-! ### Quotients -/

/-- One is ten to the power of 1074 in the finest unit.  The exponent is given by a name, so that
nothing computes the power. -/
theorem unitsPerOne_mul_finePerUnit {n : Nat} (hn : n = 1074) :
    unitsPerOne * finePerUnit = Nat.pow 10 n := by
  unfold unitsPerOne finePerUnit
  rw [← hn]
  exact (Nat.mul_pow 2 5 n).symm

/-- Equal quotients have one nearest rank. -/
theorem nearestRank_congr (hden : 0 < den) (hden' : 0 < den') (h : num * den' = num' * den) :
    nearestRank num den = nearestRank num' den' := by
  calc nearestRank num den = nearestRank (num * den') (den * den') :=
        (nearestRank_mul_right num den hden').symm
    _ = nearestRank (num' * den) (den' * den) := by rw [h, Nat.mul_comm den den']
    _ = nearestRank num' den' := nearestRank_mul_right num' den' hden

theorem ofUnits_eq_finite (negative : Bool) (hr : r < rankCount) (h : nearestRank num den = r) :
    ofUnits negative num den = .finite negative ⟨r, hr⟩ := by
  subst h
  rw [ofUnits, dif_pos hr]

theorem nearestRank_zero : nearestRank 0 1 = 0 := rfl

/-! ### Numbers out of reach -/

theorem two_pow_le {m n : Nat} (h : m ≤ n) : Nat.pow 2 m ≤ Nat.pow 2 n :=
  Nat.pow_le_pow_right (by decide) h

theorem ten_pow_le {m n : Nat} (h : m ≤ n) : Nat.pow 10 m ≤ Nat.pow 10 n :=
  Nat.pow_le_pow_right (by decide) h

theorem ten_pow_pos (n : Nat) : 0 < Nat.pow 10 n := Nat.pow_pos (by decide)

theorem ten_pow_add (m n : Nat) : Nat.pow 10 (m + n) = Nat.pow 10 m * Nat.pow 10 n :=
  Nat.pow_add 10 m n

theorem upperMidpoint_le (hr : r < rankCount) {n : Nat} (hn : 2045 ≤ n) :
    upperMidpoint r ≤ 8 * binade * Nat.pow 2 n := by
  have hB := binade_pos
  have hmantissa : mantissa r < 2 * binade := by
    have := Nat.mod_lt r hB
    unfold mantissa
    split <;> omega
  have hscale : scale r ≤ 2045 := by
    have hdiv : r / binade < 2047 := (Nat.div_lt_iff_lt_mul hB).mpr hr
    unfold scale
    omega
  have hupper : (4 * mantissa r + 2) * Nat.pow 2 (scale r) ≤ 8 * binade * Nat.pow 2 n :=
    Nat.mul_le_mul (by omega) (two_pow_le (hscale.trans hn))
  rwa [Nat.add_mul, Nat.mul_assoc] at hupper

/-- Ten to the power of 401 lies beyond every midpoint. -/
theorem upperMidpoint_lt (hr : r < rankCount) {n : Nat} (hn : 1475 ≤ n) :
    upperMidpoint r * finePerUnit < 4 * Nat.pow 10 n := by
  obtain ⟨l, m, hl, hm⟩ : ∃ l m, l = 1475 ∧ m = 2045 := ⟨_, _, rfl, rfl⟩
  have hupper := upperMidpoint_le hr hm.ge
  have hbound : 8 * binade * Nat.pow 2 m * finePerUnit < 4 * Nat.pow 10 l := by
    rw [hl, hm]
    decide +kernel
  calc upperMidpoint r * finePerUnit ≤ 8 * binade * Nat.pow 2 m * finePerUnit :=
        Nat.mul_le_mul_right finePerUnit hupper
    _ < 4 * Nat.pow 10 l := hbound
    _ ≤ 4 * Nat.pow 10 n := Nat.mul_le_mul_left 4 (ten_pow_le (hl.trans_le hn))

/-- What lies below ten to the power of -400 rounds to zero. -/
theorem roundsTo_zero_of_lt {n : Nat} (hn : n ≤ 674) (h : c < Nat.pow 10 n) :
    roundsTo 0 c = true := by
  have hlow : lowerMidpoint 0 = 0 := rfl
  have hhigh : upperMidpoint 0 = 2 := rfl
  have hbound : 4 * Nat.pow 10 n ≤ 2 * finePerUnit :=
    (Nat.mul_le_mul_left 4 (ten_pow_le hn)).trans (by decide +kernel)
  rw [roundsTo_iff, hlow, hhigh]
  exact ⟨by omega, by omega, fun hodd => absurd rfl hodd⟩

/-! ### Decimals -/

/-- A decimal that rounds to a rank has no exponent so large that it is read as infinite. -/
theorem lt_of_roundsTo (hr : r < rankCount) (ha : 0 < a)
    (h : roundsTo r (a * Nat.pow 10 k) = true) : k < 1475 := by
  have hvalue : Nat.pow 10 k ≤ a * Nat.pow 10 k := Nat.le_mul_of_pos_left _ ha
  have hbelow := (roundsTo_iff.mp h).2.1
  by_contra hlarge
  have hupper := upperMidpoint_lt hr (not_lt.mp hlarge)
  omega

/-- A decimal whose exponent is so small that it is read as zero rounds to zero. -/
theorem roundsTo_zero_of_log2_lt (h : k + (a * Nat.pow 10 j).log2 < 674 + j) :
    roundsTo 0 (a * Nat.pow 10 k) = true := by
  have hlog : a * Nat.pow 10 j < Nat.pow 10 ((a * Nat.pow 10 j).log2 + 1) :=
    lt_of_lt_of_le Nat.lt_log2_self (Nat.pow_le_pow_left (by decide) _)
  obtain ⟨n, hn⟩ : ∃ n, n = 674 := ⟨674, rfl⟩
  refine roundsTo_zero_of_lt hn.le (Nat.lt_of_mul_lt_mul_right (a := Nat.pow 10 j) ?_)
  calc a * Nat.pow 10 k * Nat.pow 10 j = a * Nat.pow 10 j * Nat.pow 10 k := by ring
    _ < Nat.pow 10 ((a * Nat.pow 10 j).log2 + 1) * Nat.pow 10 k :=
      Nat.mul_lt_mul_of_pos_right hlog (ten_pow_pos k)
    _ = Nat.pow 10 ((a * Nat.pow 10 j).log2 + 1 + k) := (ten_pow_add _ _).symm
    _ ≤ Nat.pow 10 (n + j) := ten_pow_le (by omega)
    _ = Nat.pow 10 n * Nat.pow 10 j := ten_pow_add _ _

theorem toDouble_mk (negative : Bool) (coefficient : Nat) (exponent : Int) :
    (⟨coefficient, exponent⟩ : Decimal).toDouble negative
      = if coefficient = 0 then ofUnits negative 0 1
        else if 400 < exponent then .infinite negative
        else if exponent < -(400 + (coefficient.log2 : Int)) then ofUnits negative 0 1
        else if 0 ≤ exponent then
          ofUnits negative (coefficient * Nat.pow 10 exponent.toNat * unitsPerOne) 1
        else ofUnits negative (coefficient * unitsPerOne) (Nat.pow 10 exponent.natAbs) := rfl

/-- A decimal whose number rounds to a rank is read as the double of that rank. -/
theorem toDouble_of_roundsTo (negative : Bool) (hr : r < rankCount)
    (h : roundsTo r (a * Nat.pow 10 k) = true) :
    ((⟨a, (k : Int) - 1074⟩ : Decimal).shifted j).toDouble negative = .finite negative ⟨r, hr⟩ := by
  have hnearest := nearestRank_eq_of_roundsTo h
  have hzero : roundsTo 0 (a * Nat.pow 10 k) = true →
      ofUnits negative 0 1 = .finite negative ⟨r, hr⟩ := fun h0 =>
    ofUnits_eq_finite negative hr (nearestRank_zero.trans (roundsTo_unique h0 h))
  have hshifted : (⟨a, (k : Int) - 1074⟩ : Decimal).shifted j
      = ⟨a * Nat.pow 10 j, (k : Int) - 1074 - j⟩ := rfl
  rw [hshifted, toDouble_mk]
  by_cases hcoefficient : a * Nat.pow 10 j = 0
  · rw [if_pos hcoefficient]
    obtain rfl : a = 0 := (Nat.mul_eq_zero.mp hcoefficient).resolve_right (ten_pow_pos j).ne'
    refine hzero ?_
    rw [Nat.zero_mul]
    exact roundsTo_zero rfl
  rw [if_neg hcoefficient]
  have ha : 0 < a := Nat.pos_of_ne_zero fun ha => hcoefficient (by rw [ha, Nat.zero_mul])
  have hlarge := lt_of_roundsTo hr ha h
  rw [if_neg (by omega)]
  by_cases hsmall : (k : Int) - 1074 - j < -(400 + ((a * Nat.pow 10 j).log2 : Int))
  · rw [if_pos hsmall]
    exact hzero (roundsTo_zero_of_log2_lt (j := j) (by omega))
  rw [if_neg hsmall]
  -- the quotient is that of the number and the finest unit, whichever of the two is scaled
  obtain ⟨n, hn⟩ : ∃ n, n = 1074 := ⟨_, rfl⟩
  by_cases hexponent : 0 ≤ (k : Int) - 1074 - j
  · rw [if_pos hexponent]
    refine ofUnits_eq_finite negative hr (Eq.trans ?_ hnearest)
    refine nearestRank_congr Nat.one_pos finePerUnit_pos ?_
    obtain ⟨e, rfl⟩ : ∃ e, k = e + j + n := ⟨k - j - n, by omega⟩
    have he : (((e + j + n : Nat) : Int) - 1074 - j).toNat = e := by omega
    rw [he, Nat.mul_one, Nat.mul_assoc, unitsPerOne_mul_finePerUnit hn, ten_pow_add, ten_pow_add]
    ring
  · rw [if_neg hexponent]
    refine ofUnits_eq_finite negative hr (Eq.trans ?_ hnearest)
    refine nearestRank_congr (ten_pow_pos _) finePerUnit_pos ?_
    obtain ⟨e, he⟩ : ∃ e, k + e = j + n := ⟨j + n - k, by omega⟩
    have habs : ((k : Int) - 1074 - j).natAbs = e := by omega
    rw [habs, Nat.mul_assoc, unitsPerOne_mul_finePerUnit hn, Nat.mul_assoc, Nat.mul_assoc,
      ← ten_pow_add, ← ten_pow_add, he]

/-- The text of a rank denotes a decimal that is read as its double. -/
theorem exists_decimal?_written_shortest (r : Fin rankCount) :
    ∃ d, Numeral.decimal? (shortest r).written = some d
      ∧ ∀ negative, d.toDouble negative = .finite negative r := by
  obtain ⟨a, k, hshortest, hrounds⟩ := roundsTo_shortest r
  obtain ⟨j, hj⟩ := Decimal.decimal?_written (shortest r)
  refine ⟨_, hj, fun negative => ?_⟩
  rw [hshortest]
  exact toDouble_of_roundsTo negative r.isLt hrounds

end FrameExport.Double
