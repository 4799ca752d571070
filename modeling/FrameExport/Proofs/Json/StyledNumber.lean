import FrameExport.Json.Literal
import FrameExport.Proofs.Double.Plain
import FrameExport.Proofs.Double.Value

/-!
# Numbers in style sheets

A number of a design file is an integer or a double, and `Json.rational?` is its value if that is
finite.  In a style sheet it is written without exponent.  `WritesExactly` says what is expected of
its text: a plain decimal that denotes the number itself if it is an integer, and otherwise what its
literal form denotes.  The headline is `writesExactly_styled`, which adds that numbers have one text
exactly if they are one number, whether they are given as integers or as doubles.
-/

namespace FrameExport

open Numeral (value?)

/-- A text is a plain decimal and denotes a number, exactly if that is an integer, and otherwise as
exactly as its literal form does.  Zero has no sign. -/
structure WritesExactly (text literal : List Char) (q : ℚ) : Prop where
  plain : IsPlainDecimal text
  whole : (∃ n : Int, q = n) → value? text = some q
  zero : q = 0 → text = ['0']
  fraction : (¬ ∃ n : Int, q = n) → ∃ p, value? text = some p ∧ value? literal = some p

namespace Json

variable {v w : Json} {q p : ℚ}

/-- The value of a finite number. -/
def rational? : Json → Option ℚ
  | .int n => some n
  | .double x => x.rational?
  | _ => none

/-- A number is written as an integer, or it is a double whose value is none. -/
theorem styled_eq_or_of_rational? (h : v.rational? = some q) :
    (∃ n : Int, q = n ∧ v.styled = intDigits n)
      ∨ (¬ ∃ n : Int, q = n) ∧ ∃ negative r, v = .double (.finite negative r)
        ∧ (Double.finite negative r).integer? = none := by
  cases v with
  | int n => exact .inl ⟨n, (Option.some.inj h).symm, rfl⟩
  | double x =>
    cases hx : x.integer? with
    | some n =>
      have hq := Double.integer?_eq_some_iff.mp hx
      refine .inl ⟨n, Option.some.inj (h.symm.trans hq), Double.writePlain_of_integer? hx⟩
    | none =>
      refine .inr ⟨?_, ?_⟩
      · rintro ⟨n, rfl⟩
        rw [Double.integer?_eq_some_iff.mpr h] at hx
        cases hx
      · cases x with
        | nan => cases h
        | infinite negative => cases h
        | finite negative r => exact ⟨negative, r, rfl, hx⟩
  | _ => cases h

theorem isPlainDecimal_styled (h : v.rational? = some q) : IsPlainDecimal v.styled := by
  rcases styled_eq_or_of_rational? h with ⟨n, -, htext⟩ | ⟨-, negative, r, rfl, -⟩
  · rw [htext]
    exact isPlainDecimal_intDigits n
  · exact Double.isPlainDecimal_writePlain_iff.mpr rfl

/-- The text of a number that is no integer denotes none. -/
theorem exists_value?_styled (h : v.rational? = some q) (hq : ¬ ∃ n : Int, q = n) :
    ∃ p, value? v.styled = some p ∧ value? v.literal = some p ∧ ∀ n : Int, p ≠ n := by
  rcases styled_eq_or_of_rational? h with ⟨n, hn, -⟩ | ⟨-, negative, r, rfl, hr⟩
  · exact absurd ⟨n, hn⟩ hq
  · obtain ⟨hplain, hliteral⟩ := Double.value?_writePlain_of_integer?_eq_none hr
    exact ⟨_, hplain, hliteral, Double.negated_value_shortest_ne hr⟩

theorem styled_of_eq_int (h : v.rational? = some q) {n : Int} (hq : q = n) :
    v.styled = intDigits n := by
  rcases styled_eq_or_of_rational? h with ⟨m, hm, htext⟩ | ⟨hnone, -⟩
  · rw [htext, Int.cast_inj.mp (hm.symm.trans hq)]
  · exact absurd ⟨n, hq⟩ hnone

/-- A number that is no integer is not written as one. -/
theorem styled_ne_intDigits (h : v.rational? = some q) (hq : ¬ ∃ n : Int, q = n) (n : Int) :
    v.styled ≠ intDigits n := by
  obtain ⟨p, hp, -, hne⟩ := exists_value?_styled h hq
  intro htext
  rw [htext, Numeral.value?_intDigits] at hp
  exact hne n (Option.some.inj hp).symm

/-- Numbers that are no integers are doubles, and these have one text if they are one double. -/
theorem styled_eq_styled_iff_of_fractions (hv : v.rational? = some q) (hw : w.rational? = some p)
    (hq : ¬ ∃ n : Int, q = n) (hp : ¬ ∃ n : Int, p = n) : v.styled = w.styled ↔ q = p := by
  rcases styled_eq_or_of_rational? hv with ⟨n, hn, -⟩ | ⟨-, negative, r, rfl, hr⟩
  · exact absurd ⟨n, hn⟩ hq
  rcases styled_eq_or_of_rational? hw with ⟨n, hn, -⟩ | ⟨-, negative', s, rfl, hs⟩
  · exact absurd ⟨n, hn⟩ hp
  constructor
  · intro htext
    rw [Double.eq_of_writePlain_eq hr hs htext, hw] at hv
    exact (Option.some.inj hv).symm
  · rintro rfl
    rw [Double.eq_of_rational?_eq hr (hv.trans hw.symm)]

/-- Numbers have one text exactly if they are one number. -/
theorem styled_eq_styled_iff (hv : v.rational? = some q) (hw : w.rational? = some p) :
    v.styled = w.styled ↔ q = p := by
  by_cases hq : ∃ n : Int, q = n
  · obtain ⟨n, hn⟩ := hq
    have hvtext := styled_of_eq_int hv hn
    by_cases hp : ∃ m : Int, p = m
    · obtain ⟨m, hm⟩ := hp
      rw [hvtext, styled_of_eq_int hw hm, hn, hm, Int.cast_inj]
      exact ⟨intDigits_injective, congrArg intDigits⟩
    · exact iff_of_false (fun h => styled_ne_intDigits hw hp n (h.symm.trans hvtext))
        fun h => hp ⟨n, h.symm.trans hn⟩
  · by_cases hp : ∃ m : Int, p = m
    · obtain ⟨m, hm⟩ := hp
      have hwtext := styled_of_eq_int hw hm
      exact iff_of_false (fun h => styled_ne_intDigits hv hq m (h.trans hwtext))
        fun h => hq ⟨m, h.trans hm⟩
    · exact styled_eq_styled_iff_of_fractions hv hw hq hp

/-- The text of a finite number in style sheets is a plain decimal that denotes the number, and two
numbers have one text exactly if they are one number. -/
theorem writesExactly_styled (h : v.rational? = some q) :
    WritesExactly v.styled v.literal q
      ∧ ∀ (w : Json) (p : ℚ), w.rational? = some p → (v.styled = w.styled ↔ q = p) := by
  refine ⟨⟨isPlainDecimal_styled h, ?_, ?_, ?_⟩, fun w p hw => styled_eq_styled_iff h hw⟩
  · rintro ⟨n, rfl⟩
    rw [styled_of_eq_int h rfl, Numeral.value?_intDigits]
  · rintro rfl
    exact styled_of_eq_int h Int.cast_zero.symm
  · intro hq
    obtain ⟨p, hp, hliteral, -⟩ := exists_value?_styled h hq
    exact ⟨p, hp, hliteral⟩

/-- Two to the power of -16 has an exponent in its literal form, and zeros in style sheets. -/
theorem writesExactly_styled_smallPower :
    ∃ x : Double, (double x).rational? = some (1 / 65536)
      ∧ WritesExactly "0.0000152587890625".toList "1.52587890625e-05".toList (1 / 65536)
      ∧ (double x).styled ≠ (int 0).styled := by
  have hr : 1007 * Double.binade < Double.rankCount := by decide
  have hunits : Double.signedUnits false (1007 * Double.binade) * 65536 = Double.unitsPerOne := by
    decide +kernel
  have hvalue : (double (.finite false ⟨_, hr⟩)).rational? = some (1 / 65536) := by
    refine congrArg some ((div_eq_div_iff Double.cast_unitsPerOne_ne_zero (by norm_num)).mpr ?_)
    rw [one_mul]
    exact_mod_cast hunits
  have hstyled : (double (.finite false ⟨_, hr⟩)).styled = "0.0000152587890625".toList := by
    decide +kernel +revert
  have hliteral : (double (.finite false ⟨_, hr⟩)).literal = "1.52587890625e-05".toList := by
    decide +kernel +revert
  obtain ⟨hexact, htext⟩ := writesExactly_styled hvalue
  refine ⟨_, hvalue, hstyled ▸ hliteral ▸ hexact, fun h => ?_⟩
  have hzero := (htext (int 0) 0 (congrArg some Int.cast_zero)).mp h
  norm_num at hzero

end Json

end FrameExport
