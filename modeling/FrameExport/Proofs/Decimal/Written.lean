import FrameExport.Decimal.Numeral
import FrameExport.Decimal.Written
import FrameExport.Proofs.Decimal.Digits
import Mathlib.Tactic.Ring

/-!
# What a written decimal denotes

A decimal is written positionally or with an exponent; either way `Numeral.decimal?` finds the same
number in the text (`decimal?_written`).  It need not find the same coefficient and exponent, because
zeros in front of the point become part of the coefficient: it finds a `shifted` decimal.
`mul_pow_eq_of_shifted_eq` says that two decimals with a shifted one in common are the same number,
so a text determines the number that was written (`mul_pow_eq_of_written_eq`).
-/

namespace FrameExport

namespace Decimal

/-- The text of a decimal stands for the decimal itself, with `j` zeros moved from the exponent into
the coefficient. -/
def shifted (d : Decimal) (j : Nat) : Decimal := ⟨d.coefficient * Nat.pow 10 j, d.exponent - j⟩

theorem shifted_zero (d : Decimal) : d.shifted 0 = d := by
  cases d
  simp [shifted]

end Decimal

namespace Numeral

/-! ### Texts with a point, with an exponent, and with both -/

/-- Nothing that begins a run of digits stands at the front. -/
def NoDigitFirst (rest : List Char) : Prop := ∀ c ∈ rest.head?, c.isDigit = false

theorem takeWhile_isDigit {ds rest : List Char} (hd : ∀ c ∈ ds, c.isDigit = true)
    (hr : NoDigitFirst rest) : (ds ++ rest).takeWhile Char.isDigit = ds := by
  rw [List.takeWhile_append_of_pos hd]
  cases rest with
  | nil => simp
  | cons c cs =>
    have hc : c.isDigit = false := hr c rfl
    simp [hc]

theorem dropWhile_isDigit {ds rest : List Char} (hd : ∀ c ∈ ds, c.isDigit = true)
    (hr : NoDigitFirst rest) : (ds ++ rest).dropWhile Char.isDigit = rest := by
  rw [List.dropWhile_append_of_pos hd]
  cases rest with
  | nil => rfl
  | cons c cs =>
    have hc : c.isDigit = false := hr c rfl
    simp [hc]

/-- Digits on both sides of a point. -/
theorem decimal?_point {whole fraction rest : List Char} (hne : whole ≠ [])
    (hw : ∀ c ∈ whole, c.isDigit = true) (hf : ∀ c ∈ fraction, c.isDigit = true)
    (hr : NoDigitFirst rest) :
    decimal? (whole ++ '.' :: (fraction ++ rest))
      = (exponent? rest).map fun e =>
          ⟨digitsValue 0 (whole ++ fraction), e - fraction.length⟩ := by
  have hpoint : NoDigitFirst ('.' :: (fraction ++ rest)) := by
    intro c hc
    obtain rfl : '.' = c := by simpa using hc
    decide
  have hempty : whole.isEmpty = false := by simpa using hne
  unfold decimal?
  simp only [takeWhile_isDigit hw hpoint, dropWhile_isDigit hw hpoint, takeWhile_isDigit hf hr,
    dropWhile_isDigit hf hr, hempty, Bool.false_and, Bool.false_eq_true, if_false,
    digitsValue_append]

/-- Digits without a point, and then an exponent. -/
theorem decimal?_noPoint {whole rest : List Char} (hne : whole ≠ [])
    (hw : ∀ c ∈ whole, c.isDigit = true) :
    decimal? (whole ++ 'e' :: rest)
      = (exponent? ('e' :: rest)).map fun e => ⟨digitsValue 0 whole, e⟩ := by
  have he : NoDigitFirst ('e' :: rest) := by
    intro c hc
    obtain rfl : 'e' = c := by simpa using hc
    decide
  have hempty : whole.isEmpty = false := by simpa using hne
  unfold decimal?
  simp only [takeWhile_isDigit hw he, dropWhile_isDigit hw he, hempty, Bool.false_and,
    Bool.false_eq_true, if_false]
  simp [digitsValue]

end Numeral

namespace Decimal

open Numeral (decimal?)

/-! ### Positional texts -/

/-- All digits stand behind the point. -/
theorem decimal?_positional_of_point_nonpos (d : Decimal) (whole : List Char) (h : d.point ≤ 0) :
    decimal? (d.positional whole) = some d := by
  have hzero : ∀ c ∈ ['0'], c.isDigit = true := by simp
  have hdigits : ∀ c ∈ List.replicate d.point.natAbs '0' ++ digitsOf d.coefficient,
      c.isDigit = true := fun _ => isDigit_of_mem_zeros_append_digitsOf
  have hnil : Numeral.NoDigitFirst [] := by simp [Numeral.NoDigitFirst]
  have htext : d.positional whole = ['0'] ++ '.' ::
      ((List.replicate d.point.natAbs '0' ++ digitsOf d.coefficient) ++ []) := by
    simp [positional, h]
  have hvalue : digitsValue 0 (['0'] ++ (List.replicate d.point.natAbs '0'
      ++ digitsOf d.coefficient)) = d.coefficient := by
    rw [← List.append_assoc, ← List.replicate_one, List.replicate_append_replicate,
      digitsValue_zeros_digitsOf]
  -- the digits and the zeros before them make up the negative exponent
  have hexponent : -(((d.point.natAbs + (digitsOf d.coefficient).length : Nat)) : Int)
      = d.exponent := by
    have hp : d.point = (digitsOf d.coefficient).length + d.exponent := rfl
    omega
  rw [htext, Numeral.decimal?_point (by simp) hzero hdigits hnil, hvalue]
  simp only [Numeral.exponent?, Option.map_some, List.length_append, List.length_replicate,
    Int.zero_sub, hexponent]

/-- All digits stand in front of the point. -/
theorem decimal?_positional_of_length_le (d : Decimal) (h : 0 < d.point)
    (hlen : ((digitsOf d.coefficient).length : Int) ≤ d.point) :
    decimal? (d.positional ".0".toList) = some (d.shifted (d.exponent.toNat + 1)) := by
  have hp : d.point = (digitsOf d.coefficient).length + d.exponent := rfl
  have hexponent : (d.exponent.toNat : Int) = d.exponent := Int.toNat_of_nonneg (by omega)
  have hdigits : ∀ c ∈ digitsOf d.coefficient ++ List.replicate d.exponent.toNat '0',
      c.isDigit = true := fun _ => isDigit_of_mem_digitsOf_append_zeros
  have hzero : ∀ c ∈ ['0'], c.isDigit = true := by simp
  have hnil : Numeral.NoDigitFirst [] := by simp [Numeral.NoDigitFirst]
  have hne : digitsOf d.coefficient ++ List.replicate d.exponent.toNat '0' ≠ [] := by
    simp [digitsOf_ne_nil]
  -- one digit stands behind the point, so a zero more than the exponent has goes in front
  have htext : d.positional ".0".toList
      = (digitsOf d.coefficient ++ List.replicate d.exponent.toNat '0') ++ '.' :: (['0'] ++ []) := by
    simp [positional, hlen, Int.not_le.mpr h]
  have hvalue : digitsValue 0 ((digitsOf d.coefficient ++ List.replicate d.exponent.toNat '0')
      ++ ['0']) = d.coefficient * Nat.pow 10 (d.exponent.toNat + 1) := by
    rw [List.append_assoc, ← List.replicate_one, List.replicate_append_replicate,
      digitsValue_append, digitsValue_digitsOf, digitsValue_replicate_zero]
  rw [htext, Numeral.decimal?_point hne hdigits hzero hnil, hvalue]
  simp [Numeral.exponent?, shifted, hexponent]

/-- The point stands among the digits. -/
theorem decimal?_positional_of_lt_length (d : Decimal) (whole : List Char) (h : 0 < d.point)
    (hlen : d.point < (digitsOf d.coefficient).length) :
    decimal? (d.positional whole) = some d := by
  have hp : d.point = (digitsOf d.coefficient).length + d.exponent := rfl
  have hdigits : ∀ c ∈ digitsOf d.coefficient, c.isDigit = true :=
    fun _ hc => isDigit_of_mem_digitsOf hc
  have hnil : Numeral.NoDigitFirst [] := by simp [Numeral.NoDigitFirst]
  have hne : (digitsOf d.coefficient).take d.point.toNat ≠ [] := by
    simp only [ne_eq, List.take_eq_nil_iff, digitsOf_ne_nil, or_false]
    omega
  have htext : d.positional whole = (digitsOf d.coefficient).take d.point.toNat
      ++ '.' :: ((digitsOf d.coefficient).drop d.point.toNat ++ []) := by
    simp [positional, Int.not_le.mpr h, Int.not_le.mpr hlen]
  have hexponent : -(((digitsOf d.coefficient).length - d.point.toNat : Nat) : Int)
      = d.exponent := by
    omega
  rw [htext, Numeral.decimal?_point hne (fun c hc => hdigits c (List.mem_of_mem_take hc))
    (fun c hc => hdigits c (List.mem_of_mem_drop hc)) hnil, List.take_append_drop,
    digitsValue_digitsOf, List.length_drop]
  simp [Numeral.exponent?, hexponent]

theorem decimal?_positional (d : Decimal) :
    ∃ j, decimal? (d.positional ".0".toList) = some (d.shifted j) := by
  by_cases h : d.point ≤ 0
  · exact ⟨0, by rw [decimal?_positional_of_point_nonpos d _ h, shifted_zero]⟩
  · by_cases hlen : ((digitsOf d.coefficient).length : Int) ≤ d.point
    · exact ⟨_, decimal?_positional_of_length_le d (by omega) hlen⟩
    · exact ⟨0, by rw [decimal?_positional_of_lt_length d _ (by omega) (by omega), shifted_zero]⟩

/-! ### Texts with an exponent -/

/-- A sign and at least two digits are the exponent they denote. -/
theorem exponent?_written (e : Int) :
    Numeral.exponent? ('e' :: (if e < 0 then '-' else '+')
      :: (if (digitsOf e.natAbs).length < 2 then '0' :: digitsOf e.natAbs
          else digitsOf e.natAbs)) = some e := by
  -- the zero that pads the exponent to two digits does not change its value
  have hpadded : ∃ k, (if (digitsOf e.natAbs).length < 2 then '0' :: digitsOf e.natAbs
      else digitsOf e.natAbs) = List.replicate k '0' ++ digitsOf e.natAbs := by
    split
    · exact ⟨1, rfl⟩
    · exact ⟨0, rfl⟩
  obtain ⟨k, hk⟩ := hpadded
  have hall : (List.replicate k '0' ++ digitsOf e.natAbs).all Char.isDigit = true := by
    rw [List.all_eq_true]
    exact fun _ => isDigit_of_mem_zeros_append_digitsOf
  have hempty : (List.replicate k '0' ++ digitsOf e.natAbs).isEmpty = false := by
    simp [digitsOf_ne_nil]
  rw [hk]
  by_cases he : e < 0
  · have hvalue : -(e.natAbs : Int) = e := by omega
    simp only [he, if_true, Numeral.exponent?, Numeral.splitSign, hall, hempty,
      digitsValue_zeros_digitsOf, hvalue]
    rfl
  · have hvalue : (e.natAbs : Int) = e := by omega
    simp only [he, if_false, Numeral.exponent?, Numeral.splitSign, hall, hempty,
      digitsValue_zeros_digitsOf, hvalue]
    rfl

theorem decimal?_scientific (d : Decimal) : decimal? d.scientific = some d := by
  have hp : d.point = (digitsOf d.coefficient).length + d.exponent := rfl
  have hpos : 0 < (digitsOf d.coefficient).length := List.length_pos_iff.mpr (digitsOf_ne_nil _)
  have hfirst : ∀ c ∈ (digitsOf d.coefficient).take 1, c.isDigit = true :=
    fun _ hc => isDigit_of_mem_digitsOf (List.mem_of_mem_take hc)
  have hrest : ∀ c ∈ (digitsOf d.coefficient).drop 1, c.isDigit = true :=
    fun _ hc => isDigit_of_mem_digitsOf (List.mem_of_mem_drop hc)
  have hne : (digitsOf d.coefficient).take 1 ≠ [] := by
    simp [digitsOf_ne_nil]
  have hvalue : digitsValue 0 ((digitsOf d.coefficient).take 1 ++ (digitsOf d.coefficient).drop 1)
      = d.coefficient := by
    rw [List.take_append_drop, digitsValue_digitsOf]
  have hlength := List.length_drop (i := 1) (l := digitsOf d.coefficient)
  unfold scientific
  -- with one digit there is no point
  by_cases hone : (digitsOf d.coefficient).drop 1 = []
  · rw [hone, List.append_nil] at hvalue
    rw [hone, List.length_nil] at hlength
    have hexponent : d.point - 1 = d.exponent := by omega
    simp only [hone, List.isEmpty_nil, if_true, List.append_nil]
    rw [Numeral.decimal?_noPoint hne hfirst, exponent?_written, hvalue, hexponent]
    rfl
  · have hexponent : d.point - 1 - ((digitsOf d.coefficient).drop 1).length = d.exponent := by
      omega
    have hempty : ((digitsOf d.coefficient).drop 1).isEmpty = false := by simpa using hone
    simp only [hempty, Bool.false_eq_true, if_false, List.append_assoc, List.cons_append]
    rw [Numeral.decimal?_point hne hfirst hrest, exponent?_written, hvalue]
    · simp only [Option.map_some, hexponent]
    · intro c hc
      obtain rfl : 'e' = c := by simpa using hc
      decide

/-! ### The number that a text determines -/

/-- A written decimal denotes the number that was written. -/
theorem decimal?_written (d : Decimal) : ∃ j, decimal? d.written = some (d.shifted j) := by
  unfold written
  split
  · exact ⟨0, by rw [decimal?_scientific, shifted_zero]⟩
  · exact decimal?_positional d

/-- Two decimals with a shifted one in common, over one denominator. -/
theorem mul_pow_eq_of_shifted_eq {a b i j p : Nat} {k l : Nat}
    (h : (⟨a, (k : Int) - p⟩ : Decimal).shifted i = (⟨b, (l : Int) - p⟩ : Decimal).shifted j) :
    a * 10 ^ k = b * 10 ^ l := by
  obtain ⟨hc, he⟩ := Decimal.mk.inj h
  have he' : (k : Int) - p - i = (l : Int) - p - j := he
  have hkl : k + j = l + i := by omega
  have hc' : a * 10 ^ i = b * 10 ^ j := hc
  -- a common factor is put on both sides, as the powers cannot be divided
  have hmul : a * 10 ^ k * 10 ^ j = b * 10 ^ l * 10 ^ j := by
    calc a * 10 ^ k * 10 ^ j = a * 10 ^ (k + j) := by rw [pow_add]; ring
      _ = a * 10 ^ (l + i) := by rw [hkl]
      _ = a * 10 ^ i * 10 ^ l := by rw [pow_add]; ring
      _ = b * 10 ^ j * 10 ^ l := by rw [hc']
      _ = b * 10 ^ l * 10 ^ j := by ring
  exact Nat.eq_of_mul_eq_mul_right (Nat.pow_pos (by decide)) hmul

/-- Decimals with one text are one number. -/
theorem mul_pow_eq_of_written_eq {a b k l p : Nat}
    (h : (⟨a, (k : Int) - p⟩ : Decimal).written = (⟨b, (l : Int) - p⟩ : Decimal).written) :
    a * 10 ^ k = b * 10 ^ l := by
  obtain ⟨i, hi⟩ := decimal?_written ⟨a, (k : Int) - p⟩
  obtain ⟨j, hj⟩ := decimal?_written ⟨b, (l : Int) - p⟩
  rw [h, hj] at hi
  exact mul_pow_eq_of_shifted_eq (Option.some.inj hi).symm

end Decimal

end FrameExport
