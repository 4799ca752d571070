import FrameExport.Proofs.Double.Written
import Mathlib.Algebra.Order.Field.Rat
import Mathlib.Tactic.FieldSimp

/-!
# The rational number that a text denotes

`Decimal.value` is the number that a decimal is, and `Numeral.value?` the number that a text without
white space denotes.  Zeros moved from the exponent into the coefficient do not change a number
(`value_shifted`).  So an integer has the digits of its own value (`value?_intDigits`), and the form
with an exponent and the form without one have the value of the decimal that is written
(`value?_signed_written`, `value?_signed_positional`).
-/

namespace FrameExport

namespace Decimal

/-- The number that a decimal is. -/
def value (d : Decimal) : ℚ := d.coefficient * (10 : ℚ) ^ d.exponent

theorem value_shifted (d : Decimal) (j : Nat) : (d.shifted j).value = d.value := by
  have hten : (10 : ℚ) ^ j ≠ 0 := pow_ne_zero j (by norm_num)
  have hpow : ((Nat.pow 10 j : Nat) : ℚ) = (10 : ℚ) ^ j := Nat.cast_pow 10 j
  show ((d.coefficient * Nat.pow 10 j : Nat) : ℚ) * (10 : ℚ) ^ (d.exponent - j) = _
  rw [value, Nat.cast_mul, hpow, zpow_sub₀ (by norm_num), zpow_natCast]
  field_simp

theorem value_nonneg (d : Decimal) : 0 ≤ d.value :=
  mul_nonneg (Nat.cast_nonneg _) (zpow_nonneg (by norm_num) _)

/-- A decimal over the denominator `10 ^ p`. -/
theorem value_mk_sub (a k p : Nat) :
    (⟨a, (k : Int) - p⟩ : Decimal).value = ((a * 10 ^ k : Nat) : ℚ) / ((10 ^ p : Nat) : ℚ) := by
  rw [value, zpow_sub₀ (by norm_num), zpow_natCast, zpow_natCast]
  push_cast
  ring

end Decimal

/-- A number with a sign in front. -/
def negated (negative : Bool) (q : ℚ) : ℚ := if negative then -q else q

namespace Numeral

/-- The number that a text denotes: a sign or none, and a decimal. -/
def value? (cs : List Char) : Option ℚ :=
  (decimal? (splitSign cs).2).map fun d => negated (splitSign cs).1 d.value

/-- Digits are a whole number. -/
theorem decimal?_digits {ds : List Char} (hne : ds ≠ []) (hds : ∀ c ∈ ds, c.isDigit = true) :
    decimal? ds = some ⟨digitsValue 0 ds, 0⟩ := by
  have hnil : NoDigitFirst [] := by simp [NoDigitFirst]
  have htake := takeWhile_isDigit hds hnil
  have hdrop := dropWhile_isDigit hds hnil
  rw [List.append_nil] at htake hdrop
  have hempty : ds.isEmpty = false := by simpa using hne
  unfold decimal?
  simp only [htake, hdrop, hempty]
  rfl

theorem splitSign_signed {c : Char} (negative : Bool) (hc : c.isDigit = true) (cs : List Char) :
    splitSign (signed negative (c :: cs)) = (negative, c :: cs) := by
  cases negative with
  | true => rfl
  | false =>
    have hminus : c ≠ '-' := Double.ne_of_isDigit hc (by decide)
    have hplus : c ≠ '+' := Double.ne_of_isDigit hc (by decide)
    show splitSign (c :: cs) = (false, c :: cs)
    unfold splitSign
    split
    · rename_i h
      exact absurd (List.cons.inj h).1 hminus
    · rename_i h
      exact absurd (List.cons.inj h).1 hplus
    · rfl

/-- A decimal with a sign in front of it denotes the decimal with that sign. -/
theorem value?_signed {cs : List Char} {d : Decimal} {j : Nat} (negative : Bool)
    (hhead : ∃ c ds, cs = c :: ds ∧ c.isDigit = true) (hd : decimal? cs = some (d.shifted j)) :
    value? (signed negative cs) = some (negated negative d.value) := by
  obtain ⟨c, ds, rfl, hc⟩ := hhead
  rw [value?, splitSign_signed negative hc, hd, Option.map_some, Decimal.value_shifted]

theorem value?_intDigits (n : Int) : value? (intDigits n) = some (n : ℚ) := by
  have hdigits : ∀ negative, value? (signed negative (digitsOf n.natAbs))
      = some (negated negative (n.natAbs : ℚ)) := by
    intro negative
    have hd : decimal? (digitsOf n.natAbs) = some ((⟨n.natAbs, 0⟩ : Decimal).shifted 0) := by
      rw [decimal?_digits (digitsOf_ne_nil _) fun _ => isDigit_of_mem_digitsOf,
        digitsValue_digitsOf, Decimal.shifted_zero]
    rw [value?_signed negative (head_digitsOf _) hd, Decimal.value, zpow_zero, mul_one]
  have htext : intDigits n = signed (decide (n < 0)) (digitsOf n.natAbs) := by
    unfold intDigits signed
    simp only [decide_eq_true_eq]
  rw [htext, hdigits]
  congr 1
  rw [negated, Nat.cast_natAbs]
  split
  · rename_i hneg
    rw [abs_of_neg (by simpa using hneg), Int.cast_neg, neg_neg]
  · rename_i hneg
    rw [abs_of_nonneg (by simpa using hneg)]

end Numeral

namespace Decimal

open Numeral (decimal? value?)

/-- All digits stand in front of the point, which is left out. -/
theorem decimal?_positional_nil_of_length_le (d : Decimal) (h : 0 < d.point)
    (hlen : ((digitsOf d.coefficient).length : Int) ≤ d.point) :
    decimal? (d.positional []) = some (d.shifted d.exponent.toNat) := by
  have hp : d.point = (digitsOf d.coefficient).length + d.exponent := rfl
  have hexponent : (d.exponent.toNat : Int) = d.exponent := Int.toNat_of_nonneg (by omega)
  have htext : d.positional []
      = digitsOf d.coefficient ++ List.replicate d.exponent.toNat '0' := by
    simp [positional, hlen, Int.not_le.mpr h]
  have hdigits : ∀ c ∈ digitsOf d.coefficient ++ List.replicate d.exponent.toNat '0',
      c.isDigit = true := fun _ => isDigit_of_mem_digitsOf_append_zeros
  rw [htext, Numeral.decimal?_digits (by simp [digitsOf_ne_nil]) hdigits, digitsValue_append,
    digitsValue_digitsOf, digitsValue_replicate_zero]
  simp [shifted, hexponent]

theorem decimal?_positional_nil (d : Decimal) :
    ∃ j, decimal? (d.positional []) = some (d.shifted j) := by
  by_cases h : d.point ≤ 0
  · exact ⟨0, by rw [decimal?_positional_of_point_nonpos d _ h, shifted_zero]⟩
  · by_cases hlen : ((digitsOf d.coefficient).length : Int) ≤ d.point
    · exact ⟨_, decimal?_positional_nil_of_length_le d (by omega) hlen⟩
    · exact ⟨0, by rw [decimal?_positional_of_lt_length d _ (by omega) (by omega), shifted_zero]⟩

theorem value?_signed_positional (negative : Bool) (d : Decimal) :
    value? (signed negative (d.positional [])) = some (negated negative d.value) := by
  obtain ⟨j, hj⟩ := decimal?_positional_nil d
  exact Numeral.value?_signed negative (head_positional [] d) hj

theorem value?_signed_written (negative : Bool) (d : Decimal) :
    value? (signed negative d.written) = some (negated negative d.value) := by
  obtain ⟨j, hj⟩ := decimal?_written d
  exact Numeral.value?_signed negative (head_written d) hj

end Decimal

end FrameExport
