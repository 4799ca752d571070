import FrameExport.Proofs.Double.Written

/-!
# Plain decimals

A plain decimal is a minus or none, digits, and a point with more digits behind it or no point.  The
words for the values without digits are none.  So in style sheets a double is written as a plain
decimal exactly if it is finite (`Double.isPlainDecimal_writePlain_iff`).
-/

namespace FrameExport

/-- A number without exponent: a minus or none, digits, and behind a point, if there is one, more
digits. -/
inductive IsPlainDecimal : List Char → Prop where
  | whole {ds : List Char} (negative : Bool) (hds : ds ≠ []) (hdigits : ∀ c ∈ ds, c.isDigit = true) :
    IsPlainDecimal (signed negative ds)
  | fraction {ds es : List Char} (negative : Bool) (hds : ds ≠ []) (hes : es ≠ [])
      (hdigits : ∀ c ∈ ds ++ es, c.isDigit = true) :
    IsPlainDecimal (signed negative (ds ++ '.' :: es))

theorem mem_signed {negative : Bool} {cs : List Char} {c : Char} (hc : c ∈ signed negative cs) :
    c = '-' ∨ c ∈ cs := by
  unfold signed at hc
  split at hc
  · exact List.mem_cons.mp hc
  · exact Or.inr hc

/-- A plain decimal has no letters in it. -/
theorem IsPlainDecimal.mem {cs : List Char} (h : IsPlainDecimal cs) {c : Char} (hc : c ∈ cs) :
    c = '-' ∨ c = '.' ∨ c.isDigit = true := by
  cases h with
  | whole negative hds hdigits =>
    rcases mem_signed hc with rfl | hc
    · exact Or.inl rfl
    · exact Or.inr (Or.inr (hdigits c hc))
  | fraction negative hds hes hdigits =>
    rcases mem_signed hc with rfl | hc
    · exact Or.inl rfl
    · rcases List.mem_append.mp hc with hc | hc
      · exact Or.inr (Or.inr (hdigits c (List.mem_append_left _ hc)))
      · rcases List.mem_cons.mp hc with rfl | hc
        · exact Or.inr (Or.inl rfl)
        · exact Or.inr (Or.inr (hdigits c (List.mem_append_right _ hc)))

theorem isPlainDecimal_intDigits (n : Int) : IsPlainDecimal (intDigits n) := by
  unfold intDigits
  split
  · exact .whole true (digitsOf_ne_nil _) fun _ => isDigit_of_mem_digitsOf
  · exact .whole false (digitsOf_ne_nil _) fun _ => isDigit_of_mem_digitsOf

/-- The positional digits of a decimal are plain, wherever the point stands. -/
theorem isPlainDecimal_positional (negative : Bool) (d : Decimal) :
    IsPlainDecimal (signed negative (d.positional [])) := by
  have hzero : ∀ n, ∀ c ∈ List.replicate n '0', c.isDigit = true :=
    fun _ _ => isDigit_of_mem_replicate_zero
  have hdigits : ∀ c ∈ digitsOf d.coefficient, c.isDigit = true := fun _ => isDigit_of_mem_digitsOf
  have hne := digitsOf_ne_nil d.coefficient
  unfold Decimal.positional
  dsimp only
  split
  -- all digits stand behind the point
  · show IsPlainDecimal (signed negative (['0'] ++ '.' :: _))
    refine .fraction negative (by simp) (by simp [hne]) ?_
    rw [List.singleton_append, List.forall_mem_cons, List.forall_mem_append]
    exact ⟨rfl, hzero _, hdigits⟩
  · split
    -- all of them stand in front of it
    · rw [List.append_nil]
      refine .whole negative (by simp [hne]) ?_
      rw [List.forall_mem_append]
      exact ⟨hdigits, hzero _⟩
    -- it stands among them
    · refine .fraction negative ?_ ?_ ?_
      · rw [Ne, List.take_eq_nil_iff]
        simp only [hne, or_false]
        omega
      · rw [Ne, List.drop_eq_nil_iff]
        omega
      · rw [List.take_append_drop]
        exact hdigits

namespace Double

/-- In style sheets a double is written as a plain decimal exactly if it is finite. -/
theorem isPlainDecimal_writePlain_iff {x : Double} :
    IsPlainDecimal x.writePlain ↔ x.isFinite = true := by
  have hword : ∀ cs, 'n' ∈ cs → ¬ IsPlainDecimal cs := fun cs hn h => by
    have hmark : ¬ ('n' = '-' ∨ 'n' = '.' ∨ 'n'.isDigit = true) := by decide
    exact hmark (h.mem hn)
  cases x with
  | nan => exact iff_of_false (hword _ (by decide)) (by decide)
  | infinite negative => exact iff_of_false (hword _ (by cases negative <;> decide)) Bool.false_ne_true
  | finite negative r =>
    refine iff_of_true ?_ rfl
    unfold writePlain
    split
    · exact isPlainDecimal_intDigits _
    · rename_i hx
      cases hx
    · rename_i hx
      cases hx
    · rename_i hx
      cases hx
      exact isPlainDecimal_positional _ _

/-- The characters of doubles in style sheets are digits, two marks, and the letters of two words. -/
theorem mem_writePlain {x : Double} {c : Char} (hc : c ∈ x.writePlain) :
    c.isDigit = true ∨ c ∈ "-.naif".toList := by
  cases x with
  | nan => exact Or.inr ((by decide : "nan".toList ⊆ "-.naif".toList) hc)
  | infinite negative =>
    rcases mem_signed hc with rfl | hc
    · exact Or.inr (by decide)
    · exact Or.inr ((by decide : "inf".toList ⊆ "-.naif".toList) hc)
  | finite negative r =>
    rcases (isPlainDecimal_writePlain_iff.mpr rfl).mem hc with rfl | rfl | hdigit
    · exact Or.inr (by decide)
    · exact Or.inr (by decide)
    · exact Or.inl hdigit

end Double

end FrameExport
