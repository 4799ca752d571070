import FrameExport.Decimal.Basic

/-!
# Decimal digits read back

`digitsValue` undoes `digitsOf` (`digitsValue_digitsOf`), and it is additive along a run of digits
(`digitsValue_append`).  Hence a natural number and an integer are determined by their digits
(`digitsOf_injective`, `intDigits_injective`).
-/

namespace FrameExport

/-! ### The value of a run of digits -/

theorem digitsValue_eq_ofDigitChars (start : Nat) (digits : List Char) :
    digitsValue start digits = Nat.ofDigitChars 10 digits start := rfl

theorem digitsValue_append (start : Nat) (ds es : List Char) :
    digitsValue start (ds ++ es) = digitsValue (digitsValue start ds) es :=
  List.foldl_append

theorem digitsValue_replicate_zero (start n : Nat) :
    digitsValue start (List.replicate n '0') = start * Nat.pow 10 n := by
  rw [digitsValue_eq_ofDigitChars, Nat.ofDigitChars_replicate_zero, Nat.mul_comm]
  rfl

@[simp] theorem digitsValue_digitsOf (n : Nat) : digitsValue 0 (digitsOf n) = n := by
  rw [digitsValue_eq_ofDigitChars, digitsOf]
  exact Nat.ofDigitChars_ten_toDigits

theorem digitsValue_zeros_digitsOf (k n : Nat) :
    digitsValue 0 (List.replicate k '0' ++ digitsOf n) = n := by
  rw [digitsValue_append, digitsValue_replicate_zero, Nat.zero_mul, digitsValue_digitsOf]

/-! ### The digits of a number -/

theorem isDigit_of_mem_digitsOf {n : Nat} {c : Char} (hc : c ∈ digitsOf n) : c.isDigit = true :=
  Nat.isDigit_of_mem_toDigits (by decide) (by decide) hc

theorem isDigit_of_mem_replicate_zero {n : Nat} {c : Char} (hc : c ∈ List.replicate n '0') :
    c.isDigit = true := by
  rw [List.eq_of_mem_replicate hc]
  rfl

theorem digitsOf_ne_nil (n : Nat) : digitsOf n ≠ [] := Nat.toDigits_ne_nil

theorem digitsOf_injective {m n : Nat} (h : digitsOf m = digitsOf n) : m = n := by
  rw [← digitsValue_digitsOf m, h, digitsValue_digitsOf]

theorem isDigit_of_mem_zeros_append_digitsOf {k n : Nat} {c : Char}
    (hc : c ∈ List.replicate k '0' ++ digitsOf n) : c.isDigit = true := by
  rcases List.mem_append.mp hc with hc | hc
  · exact isDigit_of_mem_replicate_zero hc
  · exact isDigit_of_mem_digitsOf hc

theorem isDigit_of_mem_digitsOf_append_zeros {k n : Nat} {c : Char}
    (hc : c ∈ digitsOf n ++ List.replicate k '0') : c.isDigit = true := by
  rcases List.mem_append.mp hc with hc | hc
  · exact isDigit_of_mem_digitsOf hc
  · exact isDigit_of_mem_replicate_zero hc

/-- The first character of a number is a digit, hence no sign. -/
theorem head_digitsOf (n : Nat) : ∃ c cs, digitsOf n = c :: cs ∧ c.isDigit = true := by
  obtain ⟨c, cs, h⟩ := List.exists_cons_of_ne_nil (digitsOf_ne_nil n)
  refine ⟨c, cs, h, isDigit_of_mem_digitsOf (n := n) ?_⟩
  rw [h]
  exact List.mem_cons_self

theorem digitsOf_ne_minus_cons (n : Nat) (cs : List Char) : digitsOf n ≠ '-' :: cs := by
  intro h
  have hd : '-'.isDigit = true := isDigit_of_mem_digitsOf (n := n) (by rw [h]; simp)
  exact absurd hd (by decide)

/-! ### The digits of an integer -/

theorem mem_intDigits {n : Int} {c : Char} (hc : c ∈ intDigits n) :
    c = '-' ∨ c.isDigit = true := by
  unfold intDigits at hc
  split at hc
  · rcases List.mem_cons.mp hc with h | h
    · exact Or.inl h
    · exact Or.inr (isDigit_of_mem_digitsOf h)
  · exact Or.inr (isDigit_of_mem_digitsOf hc)

theorem intDigits_ne_nil (n : Int) : intDigits n ≠ [] := by
  unfold intDigits
  split
  · exact List.cons_ne_nil _ _
  · exact digitsOf_ne_nil _

theorem intDigits_injective {m n : Int} (h : intDigits m = intDigits n) : m = n := by
  unfold intDigits at h
  -- the signs agree, since the digits of a number do not begin with one
  split at h <;> split at h
  · have habs := digitsOf_injective (List.cons.inj h).2
    omega
  · exact absurd h.symm (digitsOf_ne_minus_cons _ _)
  · exact absurd h (digitsOf_ne_minus_cons _ _)
  · have habs := digitsOf_injective h
    omega

end FrameExport
