import FrameExport.Proofs.Double.Monotone
import Mathlib.Tactic.Linarith

/-!
# Correct rounding

What a number is rounded to is told here without the way it is found.  A rank is nearest to a number
if no magnitude lies nearer, as if there were no greatest finite one, and if it is even when another
lies at the same distance (`IsNearestRank`); there is only one such rank (`IsNearestRank.unique`).
A number is rounded to the double of its nearest rank, and to an infinity if that rank lies beyond
the finite ones (`Rounded`).

Quotients of units and decimals are rounded correctly (`rounded_ofUnits`,
`Decimal.rounded_iff_toDouble_eq`).  For the decimals whose power of ten is not formed, the midpoints
around the answer are compared with the bounds that decide against forming it.
-/

namespace FrameExport

namespace Double

variable {q : ℚ} {r s num den : Nat} {negative : Bool} {x y : Double}

/-- The magnitude of a rank; ranks from `rankCount` on continue the finite ones. -/
def magnitude (r : Nat) : ℚ := unitsOfRank r / unitsPerOne

/-- No magnitude lies nearer to the number than that of the rank, and if another one lies at the same
distance the rank is even. -/
structure IsNearestRank (q : ℚ) (r : Nat) : Prop where
  le : ∀ s, |q - magnitude r| ≤ |q - magnitude s|
  even : ∀ s, s ≠ r → |q - magnitude s| = |q - magnitude r| → r % 2 = 0

/-- The double, with the given sign, that the magnitude `q` is rounded to. -/
inductive Rounded (negative : Bool) (q : ℚ) : Double → Prop
  | finite {r : Fin rankCount} (h : IsNearestRank q r) : Rounded negative q (.finite negative r)
  | infinite {r : Nat} (hr : rankCount ≤ r) (h : IsNearestRank q r) :
    Rounded negative q (.infinite negative)

/-! ### One rank only -/

theorem cast_unitsPerOne_pos : (0 : ℚ) < unitsPerOne := Nat.cast_pos.mpr unitsPerOne_pos

theorem magnitude_strictMono (h : r < s) : magnitude r < magnitude s :=
  div_lt_div_of_pos_right (Nat.cast_lt.mpr (strictMono_unitsOfRank h)) cast_unitsPerOne_pos

/-- A number below the middle of two others lies nearer to the smaller one. -/
theorem abs_sub_le_of_two_mul_le {a b : ℚ} (hab : a < b) (hq : 2 * q ≤ a + b) :
    |q - a| ≤ |q - b| ∧ (|q - b| = |q - a| → 2 * q = a + b) := by
  have hb : |q - b| = b - q := by
    rw [abs_of_neg (by linarith), neg_sub]
  rw [hb]
  constructor
  · exact abs_le.mpr ⟨by linarith, by linarith⟩
  · intro heq
    rcases abs_choice (q - a) with hpos | hneg
    · rw [hpos] at heq
      linarith
    · rw [hneg] at heq
      linarith

/-- A number above the middle of two others lies nearer to the greater one. -/
theorem abs_sub_le_of_le_two_mul {a b : ℚ} (hab : b < a) (hq : a + b ≤ 2 * q) :
    |q - a| ≤ |q - b| ∧ (|q - b| = |q - a| → 2 * q = a + b) := by
  have hmirror := abs_sub_le_of_two_mul_le (q := -q) (neg_lt_neg hab) (by linarith)
  rw [neg_sub_neg, neg_sub_neg, abs_sub_comm a, abs_sub_comm b] at hmirror
  exact ⟨hmirror.1, fun heq => by linarith [hmirror.2 heq]⟩

theorem IsNearestRank.not_lower (hr : IsNearestRank q r) (hs : IsNearestRank q s) : ¬ r < s := by
  intro hlt
  have hmagnitude := magnitude_strictMono hlt
  have heq : |q - magnitude s| = |q - magnitude r| := le_antisymm (hs.le r) (hr.le s)
  have hreven := hr.even s hlt.ne' heq
  have hseven := hs.even r hlt.ne heq.symm
  -- the number lies in the middle of two even ranks, hence nearer to the one between them
  have hbelow := magnitude_strictMono (Nat.lt_succ_self r)
  have habove := magnitude_strictMono (show r + 1 < s by omega)
  have hnearer := hr.le (r + 1)
  have hmiddle : 2 * q = magnitude r + magnitude s := by
    rcases le_total (2 * q) (magnitude r + magnitude s) with hle | hle
    · exact (abs_sub_le_of_two_mul_le hmagnitude hle).2 heq
    · have := (abs_sub_le_of_le_two_mul hmagnitude (by linarith)).2 heq.symm
      linarith
  have hdistance : |q - magnitude r| = q - magnitude r := abs_of_pos (by linarith)
  rw [hdistance] at hnearer
  have hcloser : |q - magnitude (r + 1)| < q - magnitude r :=
    abs_lt.mpr ⟨by linarith, by linarith⟩
  exact absurd hcloser (not_lt.mpr hnearer)

/-- A number has one nearest rank. -/
theorem IsNearestRank.unique (hr : IsNearestRank q r) (hs : IsNearestRank q s) : r = s :=
  Nat.le_antisymm (not_lt.mp (hs.not_lower hr)) (not_lt.mp (hr.not_lower hs))

/-- A number is rounded to one double. -/
theorem Rounded.unique (hx : Rounded negative q x) (hy : Rounded negative q y) : x = y := by
  cases hx with
  | @finite r hr =>
    cases hy with
    | @finite s hs => rw [Fin.ext (hr.unique hs)]
    | @infinite s hlarge hs => exact absurd (hr.unique hs ▸ r.isLt) (not_lt.mpr hlarge)
  | @infinite r hlarge hr =>
    cases hy with
    | @finite s hs => exact absurd (hs.unique hr ▸ s.isLt) (not_lt.mpr hlarge)
    | infinite => rfl

/-! ### Midpoints -/

/-- The upper midpoint of a rank is the middle between its magnitude and the next one. -/
theorem upperMidpoint_eq (r : Nat) :
    upperMidpoint r = 2 * (unitsOfRank r + unitsOfRank (r + 1)) := by
  rw [upperMidpoint, quartersAbove, unitsOfRank_succ]
  omega

theorem upperMidpoint_le_of_lt (h : r < s) :
    upperMidpoint r ≤ 2 * (unitsOfRank r + unitsOfRank s) := by
  have hmono := strictMono_unitsOfRank.monotone (show r + 1 ≤ s from h)
  rw [upperMidpoint_eq]
  omega

theorem le_lowerMidpoint_of_lt (h : s < r) :
    2 * (unitsOfRank r + unitsOfRank s) ≤ lowerMidpoint r := by
  obtain ⟨k, rfl⟩ := Nat.exists_eq_add_of_lt h
  have hmono := strictMono_unitsOfRank.monotone (Nat.le_add_right s k)
  rw [lowerMidpoint_succ, upperMidpoint_eq]
  omega

/-- Four times a number, in units, compares with twice the sum of two magnitudes as the number does
with their middle. -/
theorem four_mul_units_eq (q : ℚ) (r s : Nat) :
    4 * (q * unitsPerOne) - 2 * ((unitsOfRank r : ℚ) + unitsOfRank s)
      = 2 * unitsPerOne * (2 * q - (magnitude r + magnitude s)) := by
  have hne := cast_unitsPerOne_ne_zero
  unfold magnitude
  field_simp
  ring

/-- A number between the midpoints of a rank has it as its nearest one, if it is on one of them only
when the rank is even. -/
theorem isNearestRank_of_bounds (hlow : (lowerMidpoint r : ℚ) ≤ 4 * (q * unitsPerOne))
    (hhigh : 4 * (q * unitsPerOne) ≤ (upperMidpoint r : ℚ))
    (hodd : r % 2 ≠ 0 → (lowerMidpoint r : ℚ) < 4 * (q * unitsPerOne)
      ∧ 4 * (q * unitsPerOne) < (upperMidpoint r : ℚ)) : IsNearestRank q r := by
  have hpos := cast_unitsPerOne_pos
  have hnear : ∀ s, s ≠ r → |q - magnitude r| ≤ |q - magnitude s|
      ∧ (|q - magnitude s| = |q - magnitude r| → r % 2 = 0) := by
    intro s hs
    have hunits := four_mul_units_eq q r s
    rcases Nat.lt_or_gt_of_ne hs with hlt | hgt
    · have hmidpoint : 2 * ((unitsOfRank r : ℚ) + unitsOfRank s) ≤ lowerMidpoint r :=
        mod_cast le_lowerMidpoint_of_lt hlt
      have hmiddle : magnitude r + magnitude s ≤ 2 * q := by
        refine sub_nonneg.mp (nonneg_of_mul_nonneg_right ?_ (mul_pos two_pos hpos))
        linarith
      obtain ⟨hle, heq⟩ := abs_sub_le_of_le_two_mul (magnitude_strictMono hlt) hmiddle
      refine ⟨hle, fun hsame => by_contra fun h => ?_⟩
      rw [heq hsame, sub_self, mul_zero] at hunits
      linarith [(hodd h).1]
    · have hmidpoint : (upperMidpoint r : ℚ) ≤ 2 * ((unitsOfRank r : ℚ) + unitsOfRank s) :=
        mod_cast upperMidpoint_le_of_lt hgt
      have hmiddle : 2 * q ≤ magnitude r + magnitude s := by
        refine sub_nonpos.mp (nonpos_of_mul_nonpos_right ?_ (mul_pos two_pos hpos))
        linarith
      obtain ⟨hle, heq⟩ := abs_sub_le_of_two_mul_le (magnitude_strictMono hgt) hmiddle
      refine ⟨hle, fun hsame => by_contra fun h => ?_⟩
      rw [heq hsame, sub_self, mul_zero] at hunits
      linarith [(hodd h).2]
  refine ⟨fun s => ?_, fun s hs => (hnear s hs).2⟩
  by_cases hs : s = r
  · rw [hs]
  · exact (hnear s hs).1

/-! ### Quotients -/

theorem isNearestRank_nearestRank (num : Nat) (hden : 0 < den) :
    IsNearestRank ((num : ℚ) / den / unitsPerOne) (nearestRank num den) := by
  obtain ⟨hlow, hhigh, hodd⟩ := bounds_nearestRank num hden
  have hpos : (0 : ℚ) < den := Nat.cast_pos.mpr hden
  have hunits : 4 * ((num : ℚ) / den / unitsPerOne * unitsPerOne) = (4 * num : ℚ) / den := by
    rw [div_mul_cancel₀ _ cast_unitsPerOne_ne_zero, mul_div_assoc]
  apply isNearestRank_of_bounds
  · rw [hunits, le_div_iff₀ hpos]
    exact_mod_cast hlow
  · rw [hunits, div_le_iff₀ hpos]
    exact_mod_cast hhigh
  · intro h
    rw [hunits, lt_div_iff₀ hpos, div_lt_iff₀ hpos]
    exact_mod_cast hodd h

/-- A quotient of units is rounded correctly. -/
theorem rounded_ofUnits (negative : Bool) (num : Nat) (hden : 0 < den) :
    Rounded negative ((num : ℚ) / den / unitsPerOne) (ofUnits negative num den) := by
  have hnearest := isNearestRank_nearestRank num hden
  unfold ofUnits
  split
  case isTrue hlt => exact .finite hnearest
  case isFalse hge => exact .infinite (not_lt.mp hge) hnearest

/-- A whole number is rounded correctly. -/
theorem rounded_natCast (negative : Bool) (n : Nat) :
    Rounded negative n (ofUnits negative (n * unitsPerOne) 1) := by
  have hvalue : ((n * unitsPerOne : Nat) : ℚ) / (1 : Nat) / unitsPerOne = n := by
    rw [Nat.cast_one, div_one, Nat.cast_mul, mul_div_cancel_right₀ _ cast_unitsPerOne_ne_zero]
  have hrounded := rounded_ofUnits negative (n * unitsPerOne) Nat.one_pos
  rwa [hvalue] at hrounded

/-- An integer stands for the double that it is rounded to, if that is finite.  The two cases are told
apart behind a variable, so that nothing computes with the digits of an open integer. -/
theorem ofInt?_eq : ofInt? = fun n : Int =>
    let y := ofUnits (decide (n < 0)) (n.natAbs * unitsPerOne) 1
    if y.isFinite = true then some y else none := by
  delta ofInt?
  refine funext fun n => ?_
  dsimp only
  generalize ofUnits (decide (n < 0)) (n.natAbs * unitsPerOne) 1 = y
  cases y <;> rfl

theorem rounded_of_ofInt? {n : Int} (h : ofInt? n = some x) :
    Rounded (decide (n < 0)) n.natAbs x ∧ x.isFinite = true := by
  have hrounded := rounded_natCast (decide (n < 0)) n.natAbs
  rw [ofInt?_eq] at h
  dsimp only at h
  generalize ofUnits (decide (n < 0)) (n.natAbs * unitsPerOne) 1 = y at h hrounded
  split at h
  case isTrue hfinite =>
    obtain rfl := Option.some.inj h
    exact ⟨hrounded, hfinite⟩
  case isFalse => cases h

theorem rounded_zero (negative : Bool) : Rounded negative 0 (ofUnits negative 0 1) := by
  have hrounded := rounded_natCast negative 0
  rwa [Nat.cast_zero, Nat.zero_mul] at hrounded

theorem rounded_one : Rounded false 1 one := by
  have hrounded := rounded_natCast false 1
  rwa [Nat.cast_one, Nat.one_mul] at hrounded

end Double

namespace Decimal

open Double

variable {c e : Nat}

/-! ### Decimals -/

theorem cast_ten_pow (n : Nat) : ((Nat.pow 10 n : Nat) : ℚ) = (10 : ℚ) ^ n := Nat.cast_pow 10 n

/-- A decimal with an exponent above 400 lies beyond every finite double. -/
theorem rounded_infinite (negative : Bool) (hc : c ≠ 0) (he : 400 < e) :
    Rounded negative ((c * Nat.pow 10 e : Nat) : ℚ) (.infinite negative) := by
  have hrounded := rounded_natCast negative (c * Nat.pow 10 e)
  have hnearest := isNearestRank_nearestRank (c * Nat.pow 10 e * unitsPerOne) Nat.one_pos
  have hlarge : rankCount ≤ nearestRank (c * Nat.pow 10 e * unitsPerOne) 1 := by
    by_contra hlt
    obtain ⟨n, hn⟩ : ∃ n, n = 1074 := ⟨_, rfl⟩
    have hupper := upperMidpoint_lt (not_le.mp hlt) (show 1475 ≤ e + n by omega)
    have hhigh := (bounds_nearestRank (c * Nat.pow 10 e * unitsPerOne) Nat.one_pos).2.1
    rw [Nat.mul_one] at hhigh
    have hscaled := Nat.mul_le_mul_right finePerUnit hhigh
    have hvalue : 4 * (c * Nat.pow 10 e * unitsPerOne) * finePerUnit
        = 4 * (c * Nat.pow 10 (e + n)) := by
      rw [ten_pow_add, ← unitsPerOne_mul_finePerUnit hn]
      ring
    have hle : Nat.pow 10 (e + n) ≤ c * Nat.pow 10 (e + n) :=
      Nat.le_mul_of_pos_left _ (Nat.pos_of_ne_zero hc)
    omega
  rw [ofUnits, dif_neg (not_lt.mpr hlarge)] at hrounded
  exact hrounded

/-- What lies below one half of the least positive double has the rank zero as its nearest one. -/
theorem isNearestRank_zero {num den : Nat} (hden : 0 < den) (h : num * (2 * unitsPerOne) ≤ den) :
    IsNearestRank ((num : ℚ) / den) 0 := by
  have hlow : lowerMidpoint 0 = 0 := rfl
  have hhigh : upperMidpoint 0 = 2 := rfl
  have hpos : (0 : ℚ) < den := Nat.cast_pos.mpr hden
  have hcast : (num : ℚ) * (2 * unitsPerOne) ≤ den := mod_cast h
  apply isNearestRank_of_bounds
  · rw [hlow, Nat.cast_zero]
    exact mul_nonneg (by norm_num)
      (mul_nonneg (div_nonneg (Nat.cast_nonneg _) hpos.le) (Nat.cast_nonneg _))
  · rw [hhigh, div_mul_eq_mul_div, ← mul_div_assoc, div_le_iff₀ hpos]
    push_cast
    linarith
  · exact fun hodd => absurd rfl hodd

/-- A decimal with so small an exponent that its power of ten is not formed is rounded to zero. -/
theorem rounded_zero_of_log2_lt (negative : Bool) (he : 400 + c.log2 < e) :
    Rounded negative ((c : ℚ) / (Nat.pow 10 e : Nat)) (ofUnits negative 0 1) := by
  have hlog : c < Nat.pow 10 (c.log2 + 1) :=
    lt_of_lt_of_le Nat.lt_log2_self (Nat.pow_le_pow_left (by decide) _)
  obtain ⟨n, hn⟩ : ∃ n, n = 400 := ⟨_, rfl⟩
  have hunit : 2 * unitsPerOne ≤ Nat.pow 10 n := by
    rw [hn]
    decide +kernel
  have hsmall : c * (2 * unitsPerOne) ≤ Nat.pow 10 e :=
    calc c * (2 * unitsPerOne) ≤ Nat.pow 10 (c.log2 + 1) * Nat.pow 10 n :=
          Nat.mul_le_mul hlog.le hunit
      _ = Nat.pow 10 (c.log2 + 1 + n) := (ten_pow_add _ _).symm
      _ ≤ Nat.pow 10 e := ten_pow_le (by omega)
  rw [ofUnits_eq_finite negative rankCount_pos nearestRank_zero]
  exact .finite (isNearestRank_zero (ten_pow_pos e) hsmall)

/-- A decimal is rounded correctly, whatever its exponent. -/
theorem rounded_toDouble (negative : Bool) (d : Decimal) :
    Rounded negative d.value (d.toDouble negative) := by
  obtain ⟨c, e⟩ := d
  rw [toDouble_mk]
  by_cases hc : c = 0
  · rw [if_pos hc, value, hc, Nat.cast_zero, zero_mul]
    exact rounded_zero negative
  rw [if_neg hc]
  have hwhole : ∀ k : Nat, (⟨c, k⟩ : Decimal).value = ((c * Nat.pow 10 k : Nat) : ℚ) := by
    intro k
    rw [value, zpow_natCast, Nat.cast_mul, cast_ten_pow]
  have hpart : ∀ k : Nat, (⟨c, -k⟩ : Decimal).value = (c : ℚ) / (Nat.pow 10 k : Nat) := by
    intro k
    rw [value, zpow_neg, zpow_natCast, cast_ten_pow, div_eq_mul_inv]
  by_cases hlarge : 400 < e
  · obtain ⟨k, rfl⟩ := Int.eq_ofNat_of_zero_le (show 0 ≤ e by omega)
    rw [if_pos hlarge, hwhole]
    exact rounded_infinite negative hc (by omega)
  rw [if_neg hlarge]
  by_cases hsmall : e < -(400 + (c.log2 : Int))
  · obtain ⟨k, hk⟩ := Int.eq_ofNat_of_zero_le (show 0 ≤ -e by omega)
    obtain rfl : e = -(k : Int) := by omega
    rw [if_pos hsmall, hpart]
    exact rounded_zero_of_log2_lt negative (by omega)
  rw [if_neg hsmall]
  by_cases hnonneg : 0 ≤ e
  · obtain ⟨k, rfl⟩ := Int.eq_ofNat_of_zero_le hnonneg
    rw [if_pos hnonneg, hwhole, Int.toNat_natCast]
    exact rounded_natCast negative _
  · obtain ⟨k, hk⟩ := Int.eq_ofNat_of_zero_le (show 0 ≤ -e by omega)
    obtain rfl : e = -(k : Int) := by omega
    have hrounded := rounded_ofUnits negative (c * unitsPerOne) (ten_pow_pos k)
    have hvalue : ((c * unitsPerOne : Nat) : ℚ) / (Nat.pow 10 k : Nat) / unitsPerOne
        = (c : ℚ) / (Nat.pow 10 k : Nat) := by
      rw [Nat.cast_mul, mul_div_right_comm, mul_div_cancel_right₀ _ cast_unitsPerOne_ne_zero]
    rw [if_neg hnonneg, hpart, Int.natAbs_neg, Int.natAbs_natCast, ← hvalue]
    exact hrounded

/-- **The double of a decimal is the one that its value is rounded to**, and no other. -/
theorem rounded_iff_toDouble_eq {negative : Bool} {d : Decimal} {x : Double} :
    Rounded negative d.value x ↔ d.toDouble negative = x := by
  have hrounded := d.rounded_toDouble negative
  constructor
  · exact hrounded.unique
  · rintro rfl
    exact hrounded

end Decimal

end FrameExport
