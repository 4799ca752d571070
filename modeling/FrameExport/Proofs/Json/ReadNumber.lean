import FrameExport.Json.Reader
import FrameExport.Proofs.Double.ReadBack
import FrameExport.Proofs.Double.Written

/-!
# Numbers read back

A number in a text is a whole part, a fraction and an exponent, the latter two of which may be
absent (`numberText`).  `Numeral.decimal?` and `Json.readNumber` find the same decimal in it, if the
whole part has no zero too many (`IsWhole`) and nothing that could belong to the number follows
(`Stops`).  A written decimal is such a text (`exists_numberText_written`), so a double reads back as
itself (`readNumber_write`), and so does an integer of few enough digits (`readNumber_intDigits`).
-/

namespace FrameExport

/-! ### The first digit -/

theorem head?_digitsOf_append (n : Nat) (cs : List Char) :
    (digitsOf n ++ cs).head? = (digitsOf n).head? := by
  obtain ⟨c, ds, h, -⟩ := head_digitsOf n
  rw [h]
  rfl

/-- Only zero begins with a zero. -/
theorem eq_zero_of_head?_digitsOf {n : Nat} (h : (digitsOf n).head? = some '0') : n = 0 := by
  induction n using Nat.strong_induction_on with
  | _ n ih =>
    by_cases hn : n < 10
    · have hdigit : ∀ m < 10, Nat.digitChar m = '0' → m = 0 := by decide
      rw [digitsOf, Nat.toDigits_of_lt_base hn] at h
      exact hdigit n hn (Option.some.inj h)
    · have hsplit : digitsOf n = digitsOf (n / 10) ++ [Nat.digitChar (n % 10)] :=
        Nat.toDigits_of_base_le (by decide) (not_lt.mp hn)
      rw [hsplit, head?_digitsOf_append] at h
      have hzero := ih (n / 10) (by omega) h
      omega

namespace Json

open Numeral (NoDigitFirst takeWhile_isDigit dropWhile_isDigit exponent?)

variable {whole fraction tail rest ds cs : List Char} {e : Int}

/-! ### The parts of a number -/

/-- The digits that may stand in front of point and exponent: a zero alone, or digits that begin
with no zero. -/
structure IsWhole (whole : List Char) : Prop where
  ne_nil : whole ≠ []
  digits : ∀ c ∈ whole, c.isDigit = true
  eq_zero : whole.head? = some '0' → whole = ['0']

theorem isWhole_digitsOf (n : Nat) : IsWhole (digitsOf n) where
  ne_nil := digitsOf_ne_nil n
  digits _ hc := isDigit_of_mem_digitsOf hc
  eq_zero h := by
    rw [eq_zero_of_head?_digitsOf h]
    rfl

/-- What follows a number: nothing that could belong to it. -/
def Stops (rest : List Char) : Prop :=
  ∀ c ∈ rest.head?, c.isDigit = false ∧ c ≠ '.' ∧ c ≠ 'e' ∧ c ≠ 'E'

theorem Stops.noDigitFirst (h : Stops rest) : NoDigitFirst rest := fun c hc => (h c hc).1

theorem noDigitFirst_cons {c : Char} (hc : c.isDigit = false) (cs : List Char) :
    NoDigitFirst (c :: cs) := by
  intro d hd
  obtain rfl : c = d := by simpa using hd
  exact hc

theorem exponent?_cons (c : Char) (cs : List Char) :
    exponent? (c :: cs)
      = if c = 'e' ∨ c = 'E' then
          if (Numeral.splitSign cs).2.isEmpty || !(Numeral.splitSign cs).2.all Char.isDigit then none
          else some (if (Numeral.splitSign cs).1 then -(digitsValue 0 (Numeral.splitSign cs).2 : Int)
            else (digitsValue 0 (Numeral.splitSign cs).2 : Int))
        else none := rfl

theorem splitExponent_cons (c : Char) (cs : List Char) :
    splitExponent (c :: cs)
      = if c = 'e' ∨ c = 'E' then
          if ((Numeral.splitSign cs).2.takeWhile Char.isDigit).isEmpty then (none, c :: cs)
          else
            (some (if (Numeral.splitSign cs).1
              then -(digitsValue 0 ((Numeral.splitSign cs).2.takeWhile Char.isDigit) : Int)
              else (digitsValue 0 ((Numeral.splitSign cs).2.takeWhile Char.isDigit) : Int)),
            (Numeral.splitSign cs).2.dropWhile Char.isDigit)
        else (none, c :: cs) := rfl

/-- A sign is split off alike, whether something follows or not. -/
theorem splitSign_append (hne : (Numeral.splitSign cs).2 ≠ []) (rest : List Char) :
    Numeral.splitSign (cs ++ rest)
      = ((Numeral.splitSign cs).1, (Numeral.splitSign cs).2 ++ rest) := by
  unfold Numeral.splitSign at *
  split at hne
  · rfl
  · rfl
  · rename_i hminus hplus
    obtain ⟨c, ds, rfl⟩ := List.exists_cons_of_ne_nil hne
    simp_all

theorem eq_mark_of_exponent? {c : Char} (he : exponent? (c :: cs) = some e) :
    c = 'e' ∨ c = 'E' := by
  rw [exponent?_cons] at he
  by_contra hc
  rw [if_neg hc] at he
  cases he

/-- An exponent begins with its mark. -/
theorem noDigitFirst_of_exponent? (he : exponent? tail = some e) (hr : NoDigitFirst rest) :
    NoDigitFirst (tail ++ rest) := by
  cases tail with
  | nil => exact hr
  | cons c cs =>
    refine noDigitFirst_cons ?_ _
    rcases eq_mark_of_exponent? he with rfl | rfl <;> decide

theorem splitWhole_append (hw : IsWhole whole) (hr : NoDigitFirst rest) :
    splitWhole (whole ++ rest) = (whole, rest) := by
  have htake := takeWhile_isDigit hw.digits hr
  have hdrop := dropWhile_isDigit hw.digits hr
  obtain ⟨c, cs, rfl⟩ := List.exists_cons_of_ne_nil hw.ne_nil
  rw [List.cons_append] at *
  by_cases hc : c = '0'
  · subst hc
    obtain rfl : cs = [] := (List.cons.inj (hw.eq_zero rfl)).2
    rfl
  · rw [splitWhole.eq_def]
    split
    · rename_i h
      exact absurd (List.cons.inj h).1 hc
    · rw [htake, hdrop]

theorem splitFraction_point (hds : ∀ c ∈ ds, c.isDigit = true) (hne : ds ≠ [])
    (hr : NoDigitFirst rest) : splitFraction ('.' :: (ds ++ rest)) = (some ds, rest) := by
  obtain ⟨c, cs, rfl⟩ := List.exists_cons_of_ne_nil hne
  obtain ⟨hc, hcs⟩ := List.forall_mem_cons.mp hds
  rw [List.cons_append, splitFraction, if_pos hc, takeWhile_isDigit hcs hr,
    dropWhile_isDigit hcs hr]

theorem splitFraction_of_ne (h : cs.head? ≠ some '.') : splitFraction cs = (none, cs) := by
  unfold splitFraction
  split
  · exact absurd rfl h
  · rfl

theorem splitExponent_of_stops (h : Stops rest) : splitExponent rest = (none, rest) := by
  cases rest with
  | nil => rfl
  | cons c cs =>
    obtain ⟨-, -, he, hE⟩ := h c rfl
    simp [splitExponent, he, hE]

/-- An exponent is read up to its last digit. -/
theorem splitExponent_append (he : exponent? tail = some e) (hne : tail ≠ [])
    (hr : NoDigitFirst rest) : splitExponent (tail ++ rest) = (some e, rest) := by
  obtain ⟨c, cs, rfl⟩ := List.exists_cons_of_ne_nil hne
  have hmark := eq_mark_of_exponent? he
  rw [exponent?_cons, if_pos hmark] at he
  split at he
  · cases he
  · rename_i hvalid
    obtain ⟨hempty, hall⟩ : (Numeral.splitSign cs).2 ≠ []
        ∧ ∀ d ∈ (Numeral.splitSign cs).2, d.isDigit = true := by
      simpa using hvalid
    have htake := takeWhile_isDigit hall hr
    have hdrop := dropWhile_isDigit hall hr
    rw [List.cons_append, splitExponent_cons, if_pos hmark, splitSign_append hempty, htake, hdrop,
      if_neg (by simpa using hempty), he]

/-! ### Whole numbers with fraction and exponent -/

/-- A number of three parts, without the point if the fraction is absent. -/
def numberText (whole fraction tail : List Char) : List Char :=
  whole ++ ((if fraction.isEmpty then [] else '.' :: fraction) ++ tail)

/-- The decimal that a number of three parts denotes. -/
def numberValue (whole fraction : List Char) (e : Int) : Decimal :=
  ⟨digitsValue 0 (whole ++ fraction), e - fraction.length⟩

theorem decimal?_numberText (hw : IsWhole whole) (hf : ∀ c ∈ fraction, c.isDigit = true)
    (he : exponent? tail = some e) (hparts : fraction ≠ [] ∨ tail ≠ []) :
    Numeral.decimal? (numberText whole fraction tail) = some (numberValue whole fraction e) := by
  have htail : NoDigitFirst (tail ++ []) := noDigitFirst_of_exponent? he (by simp [NoDigitFirst])
  rw [List.append_nil] at htail
  unfold numberText numberValue
  by_cases hfraction : fraction = []
  · have hne : tail ≠ [] := hparts.resolve_left (not_not.mpr hfraction)
    have hempty : whole.isEmpty = false := by simpa using hw.ne_nil
    obtain ⟨c, cs, rfl⟩ := List.exists_cons_of_ne_nil hne
    have hpoint : c ≠ '.' := by
      rintro rfl
      simp [exponent?] at he
    subst hfraction
    rw [List.isEmpty_nil, if_pos rfl, List.nil_append, List.append_nil, List.length_nil]
    unfold Numeral.decimal?
    simp [takeWhile_isDigit hw.digits htail, dropWhile_isDigit hw.digits htail, hpoint, hempty, he,
      digitsValue]
  · rw [if_neg (by simpa using hfraction), List.cons_append,
      Numeral.decimal?_point hw.ne_nil hw.digits hf htail, he]
    rfl

theorem head?_append_ne_minus (hw : IsWhole whole) (cs : List Char) :
    (whole ++ cs).head? ≠ some '-' := by
  obtain ⟨c, ds, rfl⟩ := List.exists_cons_of_ne_nil hw.ne_nil
  intro h
  obtain rfl : c = '-' := Option.some.inj h
  exact absurd (hw.digits _ List.mem_cons_self) (by decide)

theorem signed_append (negative : Bool) (cs rest : List Char) :
    signed negative cs ++ rest = signed negative (cs ++ rest) := by
  cases negative <;> rfl

theorem Stops.head?_ne_point (h : Stops rest) : rest.head? ≠ some '.' :=
  fun hhead => (h '.' hhead).2.1 rfl

/-- A number without fraction and exponent is an integer. -/
theorem readNumber_int (negative : Bool) (hw : IsWhole whole) (hlength : whole.length ≤ maxIntDigits)
    (hr : Stops rest) :
    readNumber (signed negative (whole ++ rest))
      = .ok (.int (if negative then -(digitsValue 0 whole : Int) else digitsValue 0 whole),
          rest) := by
  have hwhole := splitWhole_append hw hr.noDigitFirst
  have hfraction := splitFraction_of_ne hr.head?_ne_point
  have hexponent := splitExponent_of_stops hr
  have hfirst := head?_append_ne_minus hw rest
  obtain ⟨c, ds, rfl⟩ := List.exists_cons_of_ne_nil hw.ne_nil
  have hc : c ≠ '-' := fun h => hfirst (congrArg some h)
  have hlength' := not_lt.mpr hlength
  rw [List.cons_append] at *
  rw [List.length_cons] at hlength'
  cases negative <;> simp [signed, readNumber, hc, hwhole, hfraction, hexponent, hlength']

/-- Any other number is the double nearest to it. -/
theorem readNumber_double (negative : Bool) {cs' : List Char} {fraction : Option (List Char)}
    {exponent : Option Int} (hw : IsWhole whole) (hr : NoDigitFirst cs)
    (hfraction : splitFraction cs = (fraction, cs'))
    (hexponent : splitExponent cs' = (exponent, rest))
    (hparts : ¬ (fraction = none ∧ exponent = none)) :
    readNumber (signed negative (whole ++ cs))
      = .ok (.double ((⟨digitsValue (digitsValue 0 whole) (fraction.getD []),
          exponent.getD 0 - (fraction.getD []).length⟩ : Decimal).toDouble negative), rest) := by
  have hwhole := splitWhole_append hw hr
  have hfirst := head?_append_ne_minus hw cs
  obtain ⟨c, ds, rfl⟩ := List.exists_cons_of_ne_nil hw.ne_nil
  have hc : c ≠ '-' := fun h => hfirst (congrArg some h)
  rw [List.cons_append] at *
  cases fraction with
  | none =>
    cases exponent with
    | none => exact absurd ⟨rfl, rfl⟩ hparts
    | some e => cases negative <;> simp [signed, readNumber, hc, hwhole, hfraction, hexponent]
  | some ds' =>
    cases exponent <;> cases negative <;>
      simp [signed, readNumber, hc, hwhole, hfraction, hexponent]

/-- A number with a fraction or an exponent reads as the double nearest to it. -/
theorem readNumber_numberText (negative : Bool) (hw : IsWhole whole)
    (hf : ∀ c ∈ fraction, c.isDigit = true) (he : exponent? tail = some e)
    (hparts : fraction ≠ [] ∨ tail ≠ []) (hr : Stops rest) :
    readNumber (signed negative (numberText whole fraction tail) ++ rest)
      = .ok (.double ((numberValue whole fraction e).toDouble negative), rest) := by
  have htail := noDigitFirst_of_exponent? he hr.noDigitFirst
  -- the exponent is absent, or it is what stands between the fraction and the rest
  obtain ⟨exponent, hexponent, hvalue, hsome⟩ : ∃ exponent : Option Int,
      splitExponent (tail ++ rest) = (exponent, rest) ∧ exponent.getD 0 = e
        ∧ (tail ≠ [] → exponent ≠ none) := by
    by_cases hne : tail = []
    · subst hne
      obtain rfl : 0 = e := Option.some.inj he
      exact ⟨none, splitExponent_of_stops hr, rfl, fun h => absurd rfl h⟩
    · exact ⟨some e, splitExponent_append he hne hr.noDigitFirst, rfl, fun _ => Option.some_ne_none e⟩
  unfold numberText numberValue
  rw [signed_append, List.append_assoc, List.append_assoc, digitsValue_append]
  by_cases hfraction : fraction = []
  · subst hfraction
    have hne : tail ≠ [] := hparts.resolve_left (not_not.mpr rfl)
    obtain ⟨f, rfl⟩ := Option.ne_none_iff_exists'.mp (hsome hne)
    have hpoint : (tail ++ rest).head? ≠ some '.' := by
      obtain ⟨c, cs, rfl⟩ := List.exists_cons_of_ne_nil hne
      intro h
      obtain rfl : c = '.' := Option.some.inj h
      simp [exponent?] at he
    rw [List.isEmpty_nil, if_pos rfl, List.nil_append,
      readNumber_double negative hw htail (splitFraction_of_ne hpoint) hexponent (by simp), ← hvalue]
    rfl
  · rw [if_neg (by simpa using hfraction), List.cons_append,
      readNumber_double negative hw (noDigitFirst_cons (by decide) _)
        (splitFraction_point hf hfraction htail) hexponent (by simp), hvalue]
    rfl

/-- An integer with few enough digits reads as itself. -/
theorem readNumber_intDigits {n : Int} (hn : (digitsOf n.natAbs).length ≤ maxIntDigits)
    (hr : Stops rest) : readNumber (intDigits n ++ rest) = .ok (.int n, rest) := by
  have hsigned : intDigits n = signed (decide (n < 0)) (digitsOf n.natAbs) := by
    simp [intDigits, signed]
  rw [hsigned, signed_append, readNumber_int _ (isWhole_digitsOf _) hn hr, digitsValue_digitsOf]
  have hvalue : (if decide (n < 0) = true then -(n.natAbs : Int) else (n.natAbs : Int)) = n := by
    by_cases hneg : n < 0
    · rw [if_pos (decide_eq_true hneg)]
      omega
    · rw [if_neg (by simpa using hneg)]
      omega
  rw [hvalue]

/-! ### Written decimals -/

theorem isWhole_zero : IsWhole ['0'] := isWhole_digitsOf 0

/-- Digits from the first one on, without a zero in front unless the number is zero. -/
theorem isWhole_of_prefix_digitsOf {n : Nat} (hfront : whole <+: digitsOf n) (hne : whole ≠ []) :
    IsWhole whole where
  ne_nil := hne
  digits _ hc := isDigit_of_mem_digitsOf (hfront.subset hc)
  eq_zero h := by
    obtain ⟨cs, hcs⟩ := hfront
    obtain ⟨c, ds, rfl⟩ := List.exists_cons_of_ne_nil hne
    obtain rfl : c = '0' := Option.some.inj h
    have hzero : n = 0 := eq_zero_of_head?_digitsOf (by rw [← hcs]; rfl)
    rw [hzero, List.cons_append] at hcs
    have htail : ds ++ cs = [] := (List.cons.inj hcs).2
    rw [(List.append_eq_nil_iff.mp htail).1]

/-- A positive number with zeros behind it begins with no zero. -/
theorem isWhole_digitsOf_append {n : Nat} (hn : n ≠ 0) (hds : ∀ c ∈ ds, c.isDigit = true) :
    IsWhole (digitsOf n ++ ds) where
  ne_nil := by simp [digitsOf_ne_nil]
  digits c hc := (List.mem_append.mp hc).elim isDigit_of_mem_digitsOf (hds c)
  eq_zero h := by
    rw [head?_digitsOf_append] at h
    exact absurd (eq_zero_of_head?_digitsOf h) hn

/-- A text has the form of a number with a fraction or an exponent. -/
def IsNumber (cs : List Char) : Prop :=
  ∃ whole fraction tail e, cs = numberText whole fraction tail ∧ IsWhole whole
    ∧ (∀ c ∈ fraction, c.isDigit = true) ∧ exponent? tail = some e ∧ (fraction ≠ [] ∨ tail ≠ [])

theorem isNumber_point (hw : IsWhole whole) (hf : ∀ c ∈ fraction, c.isDigit = true)
    (hne : fraction ≠ []) : IsNumber (whole ++ '.' :: fraction) :=
  ⟨whole, fraction, [], 0, by simp [numberText, hne], hw, hf, rfl, Or.inl hne⟩

theorem isNumber_scientific (d : Decimal) : IsNumber d.scientific :=
  ⟨(digitsOf d.coefficient).take 1, (digitsOf d.coefficient).drop 1, _, d.point - 1,
    List.append_assoc .., isWhole_of_prefix_digitsOf (List.take_prefix _ _) (by simp [digitsOf_ne_nil]),
    fun _ hc => isDigit_of_mem_digitsOf (List.mem_of_mem_drop hc), Decimal.exponent?_written _,
    Or.inr (List.cons_ne_nil _ _)⟩

/-- Positional digits have no zero too many, unless the number is a zero with an exponent. -/
theorem isNumber_positional {d : Decimal} (hd : d.coefficient ≠ 0 ∨ d.exponent = 0) :
    IsNumber (d.positional ".0".toList) := by
  have hdigits : ∀ c ∈ digitsOf d.coefficient, c.isDigit = true :=
    fun _ hc => isDigit_of_mem_digitsOf hc
  unfold Decimal.positional
  dsimp only
  split
  · refine isNumber_point isWhole_zero ?_ (by simp [digitsOf_ne_nil])
    exact fun c hc => (List.mem_append.mp hc).elim isDigit_of_mem_replicate_zero (hdigits c)
  split
  · have hwhole : IsWhole (digitsOf d.coefficient ++ List.replicate d.exponent.toNat '0') := by
      rcases hd with hcoefficient | hexponent
      · exact isWhole_digitsOf_append hcoefficient fun _ => isDigit_of_mem_replicate_zero
      · rw [hexponent, Int.toNat_zero, List.replicate_zero, List.append_nil]
        exact isWhole_digitsOf _
    have hzero : ∀ c ∈ ['0'], c.isDigit = true := by simp
    exact isNumber_point hwhole hzero (List.cons_ne_nil _ _)
  · rename_i hpoint hlength
    refine isNumber_point (isWhole_of_prefix_digitsOf (List.take_prefix _ _) ?_)
      (fun c hc => hdigits c (List.mem_of_mem_drop hc)) ?_
    · simp only [ne_eq, List.take_eq_nil_iff, digitsOf_ne_nil, or_false]
      omega
    · simp only [ne_eq, List.drop_eq_nil_iff]
      omega

theorem isNumber_written {d : Decimal} (hd : d.coefficient ≠ 0 ∨ d.exponent = 0) :
    IsNumber d.written := by
  unfold Decimal.written
  split
  · exact isNumber_scientific d
  · exact isNumber_positional hd

/-- What stands for a decimal among numerals stands for it among values. -/
theorem readNumber_of_decimal? (negative : Bool) {d : Decimal} (hcs : IsNumber cs)
    (hd : Numeral.decimal? cs = some d) (hr : Stops rest) :
    readNumber (signed negative cs ++ rest) = .ok (.double (d.toDouble negative), rest) := by
  obtain ⟨whole, fraction, tail, e, rfl, hw, hf, he, hparts⟩ := hcs
  rw [decimal?_numberText hw hf he hparts] at hd
  rw [readNumber_numberText negative hw hf he hparts hr, Option.some.inj hd]

end Json

namespace Double

/-- The shortest digits of zero are a zero without exponent. -/
theorem shortest_ne_zero (r : Nat) : (shortest r).coefficient ≠ 0 ∨ (shortest r).exponent = 0 := by
  obtain ⟨a, k, hshortest, hrounds⟩ := roundsTo_shortest r
  rw [hshortest]
  by_cases ha : a = 0
  · subst ha
    rw [Nat.zero_mul] at hrounds
    -- zero rounds to rank zero alone
    have hzero : unitsOfRank 0 = 0 := Nat.zero_mul _
    obtain rfl := roundsTo_unique hrounds (roundsTo_zero hzero)
    right
    rw [← hshortest, shortest, if_pos hzero]
  · exact Or.inl ha

/-- A finite double reads back as itself. -/
theorem readNumber_write (negative : Bool) (r : Fin rankCount) {rest : List Char}
    (hr : Json.Stops rest) :
    Json.readNumber ((Double.finite negative r).write .data ++ rest)
      = .ok (.double (.finite negative r), rest) := by
  obtain ⟨d, hd, hvalue⟩ := exists_decimal?_written_shortest r
  rw [write, Json.readNumber_of_decimal? negative (Json.isNumber_written (shortest_ne_zero r)) hd hr,
    hvalue]

end Double

end FrameExport
