import FrameExport.Proofs.Double.Rounded
import Mathlib.Data.List.Induction
import Mathlib.Data.List.TakeWhile
import Mathlib.Data.Nat.Digits.Defs

/-!
# The grammar of numerals

What texts are numerals, and of which doubles, is told here by the form of the text: a sign or none,
and then a word for a double that is no number, or digits with at most one point and an exponent,
whose value the double is rounded to (`IsNumeral`).  In a field a numeral has white space around it,
or stands in parts with single low lines between them (`IsFieldNumeral`).  `isFieldNumeral_of_readField`
says that whatever is read in a field has this form and this value.
-/

namespace FrameExport.Numeral

open Double (Rounded)

variable {cs : List Char} {c : Char} {x : Double}

/-- The number that a row of digits is in the decimal system. -/
def digitsNumber (digits : List Char) : Nat :=
  Nat.ofDigits 10 (digits.reverse.map fun c => c.toNat - '0'.toNat)

/-- The characters are digits. -/
def AreDigits (cs : List Char) : Prop := ∀ c ∈ cs, c.isDigit = true

/-- A sign or none, and whether it is that of a negative number. -/
inductive IsSign : List Char → Bool → Prop
  | absent : IsSign [] false
  | plus : IsSign ['+'] false
  | minus : IsSign ['-'] true

/-- The exponent that ends a numeral, if there is one. -/
inductive IsExponent : List Char → Int → Prop
  | absent : IsExponent [] 0
  | given {mark : Char} {sign digits : List Char} {negative : Bool} (hmark : mark = 'e' ∨ mark = 'E')
    (hsign : IsSign sign negative) (hne : digits ≠ []) (hdigits : AreDigits digits) :
    IsExponent (mark :: (sign ++ digits))
      (if negative then -(digitsNumber digits : Int) else digitsNumber digits)

/-- Digits, perhaps with a point, and an exponent, and the number that they are. -/
inductive IsDecimal : List Char → ℚ → Prop
  | whole {digits exponent : List Char} {e : Int} (hne : digits ≠ []) (hdigits : AreDigits digits)
    (hexponent : IsExponent exponent e) :
    IsDecimal (digits ++ exponent) (digitsNumber digits * 10 ^ e)
  | pointed {digits fraction exponent : List Char} {e : Int} (hne : digits ≠ [] ∨ fraction ≠ [])
    (hdigits : AreDigits digits) (hfraction : AreDigits fraction)
    (hexponent : IsExponent exponent e) :
    IsDecimal (digits ++ '.' :: (fraction ++ exponent))
      ((digitsNumber digits + digitsNumber fraction / 10 ^ fraction.length) * 10 ^ e)

/-- A numeral, and the double that it stands for. -/
inductive IsNumeral : List Char → Double → Prop
  | nan {sign word : List Char} {negative : Bool} (hsign : IsSign sign negative)
    (hword : word.map Char.toLower = "nan".toList) : IsNumeral (sign ++ word) .nan
  | infinity {sign word : List Char} {negative : Bool} (hsign : IsSign sign negative)
    (hword : word.map Char.toLower = "inf".toList ∨ word.map Char.toLower = "infinity".toList) :
    IsNumeral (sign ++ word) (.infinite negative)
  | decimal {sign magnitude : List Char} {negative : Bool} {q : ℚ} {x : Double}
    (hsign : IsSign sign negative) (hmagnitude : IsDecimal magnitude q)
    (hx : Rounded negative q x) : IsNumeral (sign ++ magnitude) x

/-- A text that stands for a double in a field. -/
inductive IsFieldNumeral : List Char → Double → Prop
  | spaced {front numeral back : List Char} {x : Double}
    (hfront : ∀ c ∈ front, Text.isWhiteSpace c = true)
    (hback : ∀ c ∈ back, Text.isWhiteSpace c = true) (hnumeral : IsNumeral numeral x) :
    IsFieldNumeral (front ++ numeral ++ back) x
  | separated {parts : List (List Char)} {x : Double} (hparts : ∀ part ∈ parts, part ≠ [] ∧ '_' ∉ part)
    (hnumeral : IsNumeral parts.flatten x) : IsFieldNumeral (['_'].intercalate parts) x

/-! ### Digits -/

theorem areDigits_takeWhile (cs : List Char) : AreDigits (cs.takeWhile Char.isDigit) :=
  fun _ => List.mem_takeWhile_imp

theorem digitsValue_eq_digitsNumber (ds : List Char) : digitsValue 0 ds = digitsNumber ds := by
  induction ds using List.reverseRecOn with
  | nil => rfl
  | append_singleton ds d ih =>
    rw [digitsValue_append, ih, digitsNumber, digitsNumber, List.reverse_append, List.reverse_singleton,
      List.singleton_append, List.map_cons, Nat.ofDigits_cons, Nat.add_comm]
    rfl

/-- The digits of a fraction go on behind those of the whole number. -/
theorem digitsNumber_append (ds es : List Char) :
    digitsNumber (ds ++ es) = digitsNumber ds * 10 ^ es.length + digitsNumber es := by
  rw [digitsNumber, List.reverse_append, List.map_append, Nat.ofDigits_append, List.length_map,
    List.length_reverse, Nat.add_comm, Nat.mul_comm]
  rfl

/-! ### The parts of a numeral -/

theorem exists_isSign (cs : List Char) :
    ∃ sign, cs = sign ++ (splitSign cs).2 ∧ IsSign sign (splitSign cs).1 := by
  unfold splitSign
  split
  · exact ⟨['-'], rfl, .minus⟩
  · exact ⟨['+'], rfl, .plus⟩
  · exact ⟨[], rfl, .absent⟩

theorem isExponent_of_exponent? {e : Int} (h : exponent? cs = some e) : IsExponent cs e := by
  cases cs with
  | nil =>
    obtain rfl := Option.some.inj h
    exact .absent
  | cons mark cs =>
    obtain ⟨sign, hcs, hsign⟩ := exists_isSign cs
    rw [exponent?] at h
    split at h
    case isFalse => cases h
    case isTrue hmark =>
      dsimp only at h
      split at h
      case isTrue => cases h
      case isFalse hdigits =>
        rw [Bool.or_eq_true, not_or, Bool.not_eq_true, Bool.not_eq_true, Bool.not_eq_false',
          List.isEmpty_eq_false_iff, List.all_eq_true] at hdigits
        rw [hcs, ← Option.some.inj h, digitsValue_eq_digitsNumber]
        exact .given hmark hsign hdigits.1 hdigits.2

/-- A decimal whose fraction is read on behind its whole number has the value of both. -/
theorem value_pointed (digits fraction : List Char) (e : Int) :
    (⟨digitsValue (digitsValue 0 digits) fraction, e - fraction.length⟩ : Decimal).value
      = (digitsNumber digits + digitsNumber fraction / 10 ^ fraction.length) * 10 ^ e := by
  rw [← digitsValue_append, digitsValue_eq_digitsNumber, digitsNumber_append, Decimal.value,
    zpow_sub₀ (by norm_num), zpow_natCast]
  push_cast
  field_simp

/-- A decimal that is read has the form of one, and its value. -/
theorem isDecimal_of_decimal? {d : Decimal} (h : decimal? cs = some d) : IsDecimal cs d.value := by
  have hdigits := areDigits_takeWhile cs
  have hsplit : cs.takeWhile Char.isDigit ++ cs.dropWhile Char.isDigit = cs :=
    List.takeWhile_append_dropWhile
  unfold decimal? at h
  generalize cs.takeWhile Char.isDigit = digits at hdigits hsplit h
  generalize cs.dropWhile Char.isDigit = rest at hsplit h
  rw [← hsplit]
  dsimp only at h
  split at h
  case h_1 more =>
    have hfraction := areDigits_takeWhile more
    have hmore : more.takeWhile Char.isDigit ++ more.dropWhile Char.isDigit = more :=
      List.takeWhile_append_dropWhile
    generalize more.takeWhile Char.isDigit = fraction at hfraction hmore h
    generalize more.dropWhile Char.isDigit = exponent at hmore h
    dsimp only at h
    split at h
    case isTrue => cases h
    case isFalse hne =>
      rw [Bool.and_eq_true, List.isEmpty_iff, List.isEmpty_iff, not_and_or] at hne
      obtain ⟨e, he, rfl⟩ := Option.map_eq_some_iff.mp h
      rw [value_pointed, ← hmore]
      exact .pointed hne hdigits hfraction (isExponent_of_exponent? he)
  case h_2 =>
    dsimp only at h
    split at h
    case isTrue => cases h
    case isFalse hne =>
      rw [Bool.and_eq_true, List.isEmpty_iff, List.isEmpty_iff, not_and_or] at hne
      obtain ⟨e, he, rfl⟩ := Option.map_eq_some_iff.mp h
      have hvalue : ((digitsNumber digits : ℚ) + digitsNumber [] / 10 ^ ([] : List Char).length) * 10 ^ e
          = digitsNumber digits * 10 ^ e := by simp [digitsNumber]
      rw [value_pointed, hvalue]
      exact .whole (hne.resolve_right (fun h => h rfl)) hdigits (isExponent_of_exponent? he)

/-! ### Numerals -/

/-- A numeral that is read has the form of one, and its value. -/
theorem isNumeral_of_read (h : read cs = some x) : IsNumeral cs x := by
  obtain ⟨sign, hcs, hsign⟩ := exists_isSign cs
  unfold read at h
  rw [hcs]
  cases hsplit : splitSign cs with
  | mk negative magnitude =>
  rw [hsplit] at h hsign
  dsimp only at h hsign ⊢
  split at h
  case isTrue hword =>
    obtain rfl := Option.some.inj h
    exact .nan hsign hword
  case isFalse =>
    split at h
    case isTrue hword =>
      obtain rfl := Option.some.inj h
      exact .infinity hsign hword
    case isFalse =>
      obtain ⟨d, hd, hx⟩ := Option.map_eq_some_iff.mp h
      exact .decimal hsign (isDecimal_of_decimal? hd) (Decimal.rounded_iff_toDouble_eq.mpr hx)

/-! ### Numerals in a field -/

theorem exists_trim (p : Char → Bool) (cs : List Char) :
    ∃ front back, cs = front ++ Text.trim p cs ++ back ∧ (∀ c ∈ front, p c = true)
      ∧ ∀ c ∈ back, p c = true := by
  refine ⟨cs.takeWhile p, ((cs.dropWhile p).reverse.takeWhile p).reverse, ?_,
    fun _ => List.mem_takeWhile_imp, fun c hc => ?_⟩
  · rw [Text.trim, List.append_assoc, ← List.reverse_append, List.takeWhile_append_dropWhile,
      List.reverse_reverse, List.takeWhile_append_dropWhile]
  · exact List.mem_takeWhile_imp (List.mem_reverse.mp hc)

/-- A text that loses its separators consists of parts with single low lines between them.  The first
part may be empty only if something other than a low line stands in front of it. -/
theorem exists_parts {previous : Char} {cs ds : List Char}
    (h : dropSeparators previous cs = some ds) :
    ∃ first parts, cs = ['_'].intercalate (first :: parts) ∧ ds = first ++ parts.flatten
      ∧ '_' ∉ first ∧ (previous = '_' → first ≠ [])
      ∧ ∀ part ∈ parts, part ≠ [] ∧ '_' ∉ part := by
  induction cs generalizing previous ds with
  | nil =>
    rw [dropSeparators] at h
    split at h
    case isTrue => cases h
    case isFalse hprevious =>
      obtain rfl := Option.some.inj h
      exact ⟨[], [], rfl, rfl, by simp, fun h => absurd h hprevious, by simp⟩
  | cons c cs ih =>
    rw [dropSeparators] at h
    split at h
    case isTrue hc =>
      split at h
      case isTrue => cases h
      case isFalse hprevious =>
        obtain ⟨first, parts, rfl, rfl, hfirst, hne, hparts⟩ := ih h
        refine ⟨[], first :: parts, ?_, rfl, by simp, fun h => absurd h hprevious, ?_⟩
        · rw [hc]
          rfl
        · exact List.forall_mem_cons.mpr ⟨⟨hne hc, hfirst⟩, hparts⟩
    case isFalse hc =>
      obtain ⟨rest, hrest, rfl⟩ := Option.map_eq_some_iff.mp h
      obtain ⟨first, parts, rfl, rfl, hfirst, -, hparts⟩ := ih hrest
      refine ⟨c :: first, parts, ?_, rfl, ?_, by simp, hparts⟩
      · cases parts <;> rfl
      · rw [List.mem_cons, not_or]
        exact ⟨fun h => hc h.symm, hfirst⟩

/-- **What is read in a field is a numeral**, with its value rounded correctly. -/
theorem isFieldNumeral_of_readField {s : String} (h : readField s = some x) :
    IsFieldNumeral s.toList x := by
  rw [readField, Option.or_eq_some_iff] at h
  rcases h with h | ⟨-, h⟩
  · obtain ⟨front, back, hs, hfront, hback⟩ := exists_trim Text.isWhiteSpace s.toList
    rw [hs]
    exact .spaced hfront hback (isNumeral_of_read h)
  · obtain ⟨cs, hcs, hread⟩ := Option.bind_eq_some_iff.mp h
    obtain ⟨first, parts, hs, rfl, hfirst, hne, hparts⟩ := exists_parts hcs
    rw [hs]
    exact .separated (List.forall_mem_cons.mpr ⟨⟨hne rfl, hfirst⟩, hparts⟩) (isNumeral_of_read hread)

end FrameExport.Numeral
