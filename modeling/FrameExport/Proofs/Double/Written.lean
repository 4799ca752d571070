import FrameExport.Proofs.Double.Shortest

/-!
# The text of a double

The text of a double in data files is one of the words for the values without digits, or a sign and
a written decimal.  A written decimal begins with a digit (`head_written`), consists of digits and
four marks (`mem_written`), and has a point or an exponent (`point_or_exponent_mem_written`), so
that it is no integer.  Hence the text determines the double (`write_data_injective`).
-/

namespace FrameExport

namespace Decimal

/-! ### The characters of a written decimal -/

/-- The marks that a written decimal may have besides digits. -/
def marks : List Char := ['.', 'e', '+', '-']

theorem mem_positional {whole : List Char} {d : Decimal} {c : Char} (hc : c ∈ d.positional whole) :
    c.isDigit = true ∨ c = '.' ∨ c ∈ whole := by
  have hzero : ∀ n, c ∈ List.replicate n '0' → c.isDigit = true :=
    fun _ => isDigit_of_mem_replicate_zero
  have hdigits : c ∈ digitsOf d.coefficient → c.isDigit = true := isDigit_of_mem_digitsOf
  unfold positional at hc
  dsimp only at hc
  split at hc
  · rcases List.mem_cons.mp hc with rfl | hc
    · exact Or.inl rfl
    · rcases List.mem_cons.mp hc with hc | hc
      · exact Or.inr (Or.inl hc)
      · rcases List.mem_append.mp hc with hc | hc
        · exact Or.inl (hzero _ hc)
        · exact Or.inl (hdigits hc)
  · split at hc
    · rcases List.mem_append.mp hc with hc | hc
      · rcases List.mem_append.mp hc with hc | hc
        · exact Or.inl (hdigits hc)
        · exact Or.inl (hzero _ hc)
      · exact Or.inr (Or.inr hc)
    · rcases List.mem_append.mp hc with hc | hc
      · exact Or.inl (hdigits (List.mem_of_mem_take hc))
      · rcases List.mem_cons.mp hc with hc | hc
        · exact Or.inr (Or.inl hc)
        · exact Or.inl (hdigits (List.mem_of_mem_drop hc))

theorem mem_scientific {d : Decimal} {c : Char} (hc : c ∈ d.scientific) :
    c.isDigit = true ∨ c ∈ marks := by
  have hdigits : ∀ n, c ∈ digitsOf n → c.isDigit = true := fun _ => isDigit_of_mem_digitsOf
  unfold scientific at hc
  dsimp only at hc
  rcases List.mem_append.mp hc with hc | hc
  · rcases List.mem_append.mp hc with hc | hc
    · exact Or.inl (hdigits _ (List.mem_of_mem_take hc))
    · split at hc
      · exact absurd hc List.not_mem_nil
      · rcases List.mem_cons.mp hc with rfl | hc
        · exact Or.inr (by decide)
        · exact Or.inl (hdigits _ (List.mem_of_mem_drop hc))
  · rcases List.mem_cons.mp hc with rfl | hc
    · exact Or.inr (by decide)
    · rcases List.mem_cons.mp hc with hc | hc
      · refine Or.inr ?_
        rw [hc]
        split <;> decide
      · split at hc
        · rcases List.mem_cons.mp hc with rfl | hc
          · exact Or.inl rfl
          · exact Or.inl (hdigits _ hc)
        · exact Or.inl (hdigits _ hc)

theorem mem_written {d : Decimal} {c : Char} (hc : c ∈ d.written) :
    c.isDigit = true ∨ c ∈ marks := by
  unfold written at hc
  split at hc
  · exact mem_scientific hc
  · rcases mem_positional hc with hc | rfl | hc
    · exact Or.inl hc
    · exact Or.inr (by decide)
    -- the digits behind the point of a whole number
    · have hmark : c = '.' ∨ c = '0' := by simpa using hc
      rcases hmark with rfl | rfl
      · exact Or.inr (by decide)
      · exact Or.inl rfl

/-- What tells a written decimal from an integer. -/
theorem point_or_exponent_mem_written (d : Decimal) : '.' ∈ d.written ∨ 'e' ∈ d.written := by
  unfold written
  split
  · refine Or.inr ?_
    unfold scientific
    simp
  · refine Or.inl ?_
    unfold positional
    dsimp only
    split
    · simp
    · split <;> simp

/-- The first character of a positional decimal is a digit, wherever the point stands. -/
theorem head_positional (whole : List Char) (d : Decimal) :
    ∃ c cs, d.positional whole = c :: cs ∧ c.isDigit = true := by
  obtain ⟨c, cs, hd, hc⟩ := head_digitsOf d.coefficient
  unfold positional
  dsimp only
  split
  · exact ⟨'0', _, rfl, rfl⟩
  -- the point does not come first, so a digit is taken in front of it
  · rename_i hpoint
    split
    · exact ⟨c, _, by rw [hd]; rfl, hc⟩
    · obtain ⟨n, hn⟩ : ∃ n, d.point.toNat = n + 1 := ⟨d.point.toNat - 1, by omega⟩
      exact ⟨c, _, by rw [hn, hd]; rfl, hc⟩

theorem head_written (d : Decimal) : ∃ c cs, d.written = c :: cs ∧ c.isDigit = true := by
  obtain ⟨c, cs, hd, hc⟩ := head_digitsOf d.coefficient
  unfold written
  split
  · exact ⟨c, _, by rw [scientific, hd]; rfl, hc⟩
  · exact head_positional _ d

end Decimal

namespace Double

/-! ### The characters of a double -/

/-- The letters of the words for the values without digits. -/
def wordLetters : List Char := ['N', 'a', 'I', 'n', 'f', 'i', 't', 'y']

theorem mem_write_data {x : Double} {c : Char} (hc : c ∈ x.write .data) :
    c.isDigit = true ∨ c ∈ Decimal.marks ∨ c ∈ wordLetters := by
  have hminus : '-' ∈ Decimal.marks := by decide
  cases x with
  | nan =>
    have hword : ∀ c ∈ "NaN".toList, c ∈ wordLetters := by
      simp [wordLetters]
    exact Or.inr (Or.inr (hword c hc))
  | infinite s =>
    have hword : ∀ c ∈ "Infinity".toList, c ∈ wordLetters := by
      simp [wordLetters]
    cases s with
    | false => exact Or.inr (Or.inr (hword c hc))
    | true =>
      rcases List.mem_cons.mp hc with rfl | hc
      · exact Or.inr (Or.inl hminus)
      · exact Or.inr (Or.inr (hword c hc))
  | finite s r =>
    have hnumber : c ∈ (shortest r).written →
        c.isDigit = true ∨ c ∈ Decimal.marks ∨ c ∈ wordLetters := by
      intro hc
      rcases Decimal.mem_written hc with h | h
      · exact Or.inl h
      · exact Or.inr (Or.inl h)
    cases s with
    | false => exact hnumber hc
    | true =>
      rcases List.mem_cons.mp hc with rfl | hc
      · exact Or.inr (Or.inl hminus)
      · exact hnumber hc

/-- The text of a double has a character that no integer has. -/
theorem exists_mem_write_data (x : Double) :
    ∃ c ∈ x.write .data, c = '.' ∨ c = 'e' ∨ c = 'N' ∨ c = 'I' := by
  have hsigned : ∀ (s : Bool) (c : Char) (cs : List Char), c ∈ cs → c ∈ signed s cs := by
    intro s c cs h
    cases s
    · exact h
    · exact List.mem_cons_of_mem _ h
  cases x with
  | nan => exact ⟨'N', by decide, by decide⟩
  | infinite s => exact ⟨'I', hsigned s _ _ (by decide), by decide⟩
  | finite s r =>
    rcases Decimal.point_or_exponent_mem_written (shortest r) with h | h
    · exact ⟨'.', hsigned s _ _ h, by decide⟩
    · exact ⟨'e', hsigned s _ _ h, by decide⟩

/-! ### The double that a text determines -/

/-- The sign and the magnitude of a text whose magnitude does not begin with a sign. -/
theorem signed_inj {s t : Bool} {c d : Char} {cs ds : List Char} (hc : c ≠ '-') (hd : d ≠ '-')
    (h : signed s (c :: cs) = signed t (d :: ds)) : s = t ∧ c :: cs = d :: ds := by
  cases s <;> cases t
  · exact ⟨rfl, h⟩
  · exact absurd (List.cons.inj h).1 hc
  · exact absurd (List.cons.inj h).1.symm hd
  · exact ⟨rfl, (List.cons.inj h).2⟩

theorem ne_of_isDigit {c d : Char} (hc : c.isDigit = true) (hd : d.isDigit = false) : c ≠ d := by
  rintro rfl
  exact absurd hc (by simp [hd])

theorem nan_ne_signed {s : Bool} {c : Char} {cs : List Char} (hc : c ≠ 'N') :
    "NaN".toList ≠ signed s (c :: cs) := by
  intro h
  cases s
  · exact hc (List.cons.inj h).1.symm
  · exact absurd (List.cons.inj h).1 (by decide)

theorem infinite_ne_finite (s t : Bool) (r : Fin rankCount) :
    (infinite s).write .data ≠ (finite t r).write .data := by
  obtain ⟨c, cs, hw, hc⟩ := Decimal.head_written (shortest r)
  intro h
  have h' : signed s ('I' :: "nfinity".toList) = signed t (c :: cs) := by
    rw [← hw]
    exact h
  have heq := (signed_inj (by decide) (ne_of_isDigit hc (by decide)) h').2
  exact ne_of_isDigit hc (by decide) (List.cons.inj heq).1.symm

theorem nan_ne_finite (t : Bool) (r : Fin rankCount) :
    nan.write .data ≠ (finite t r).write .data := by
  obtain ⟨c, cs, hw, hc⟩ := Decimal.head_written (shortest r)
  intro h
  have h' : "NaN".toList = signed t (c :: cs) := by
    rw [← hw]
    exact h
  exact nan_ne_signed (ne_of_isDigit hc (by decide)) h'

theorem nan_ne_infinite (t : Bool) : nan.write .data ≠ (infinite t).write .data :=
  nan_ne_signed (by decide)

/-- Doubles with one text are one double. -/
theorem write_data_injective {x y : Double} (h : x.write .data = y.write .data) : x = y := by
  cases x with
  | nan =>
    cases y with
    | nan => rfl
    | infinite t => exact absurd h (nan_ne_infinite t)
    | finite t q => exact absurd h (nan_ne_finite t q)
  | infinite s =>
    cases y with
    | nan => exact absurd h.symm (nan_ne_infinite s)
    | infinite t =>
      have h' : signed s ('I' :: "nfinity".toList) = signed t ('I' :: "nfinity".toList) := h
      rw [(signed_inj (by decide) (by decide) h').1]
    | finite t q => exact absurd h (infinite_ne_finite s t q)
  | finite s r =>
    cases y with
    | nan => exact absurd h.symm (nan_ne_finite s r)
    | infinite t => exact absurd h.symm (infinite_ne_finite t s r)
    | finite t q =>
      -- no decimal begins with a sign, so the signs can be compared first
      obtain ⟨c, cs, hw, hc⟩ := Decimal.head_written (shortest r)
      obtain ⟨d, ds, hw', hd⟩ := Decimal.head_written (shortest q)
      have h' : signed s (c :: cs) = signed t (d :: ds) := by
        rw [← hw, ← hw']
        exact h
      obtain ⟨hst, htext⟩ :=
        signed_inj (ne_of_isDigit hc (by decide)) (ne_of_isDigit hd (by decide)) h'
      rw [← hw, ← hw'] at htext
      have hrq : r = q := Fin.ext (written_shortest_injective htext)
      rw [hst, hrq]

end Double

end FrameExport
