import FrameExport.Proofs.Double.Written
import FrameExport.Proofs.Json.QuotedText
import FrameExport.Proofs.Json.Reordered

/-!
# Canonical texts

A value on one line without spaces can be read off any text that it begins, if what follows begins
with a comma or a closing mark (`inline_append_inj`): a text, an array and an object announce
themselves by their first character and end at their closing mark, and every other value is a word
that goes up to the next comma or closing mark.

Sorting the fields first, the canonical text of a value determines it up to the order of fields, and
nothing more (`canonical_eq_canonical_iff`).
-/

namespace FrameExport.Json

/-! ### Words -/

/-- The marks that can stand behind a value. -/
def isEnd (c : Char) : Bool := c == ',' || c == ']' || c == '}'

/-- A character that neither ends a word nor opens a text, an array or an object. -/
def isWordChar (c : Char) : Bool := !isEnd c && c != '"' && c != '[' && c != '{'

/-- What follows a value: nothing, or a text that begins with a comma or a closing mark. -/
def Ends (rest : List Char) : Prop := ∀ c ∈ rest.head?, isEnd c = true

theorem ends_cons {c : Char} (hc : isEnd c = true) (cs : List Char) : Ends (c :: cs) := by
  intro d hd
  obtain rfl : c = d := by simpa using hd
  exact hc

theorem isWordChar_of_isDigit {c : Char} (hc : c.isDigit = true) : isWordChar c = true := by
  have hne : ∀ d : Char, d.isDigit = false → c ≠ d := fun d hd => Double.ne_of_isDigit hc hd
  have h1 := hne ',' (by decide)
  have h2 := hne ']' (by decide)
  have h3 := hne '}' (by decide)
  have h4 := hne '"' (by decide)
  have h5 := hne '[' (by decide)
  have h6 := hne '{' (by decide)
  simp [isWordChar, isEnd, *]

/-- A word ends where what follows it begins. -/
theorem word_append_inj {a b s t : List Char} (ha : ∀ c ∈ a, isWordChar c = true)
    (hb : ∀ c ∈ b, isWordChar c = true) (hs : Ends s) (ht : Ends t) (h : a ++ s = b ++ t) :
    a = b ∧ s = t := by
  have hstop : ∀ {r : List Char}, Ends r → r.takeWhile isWordChar = [] := by
    intro r hr
    cases r with
    | nil => rfl
    | cons c cs =>
      have hc : isEnd c = true := hr c rfl
      simp [isWordChar, hc]
  -- the word is the longest run of its characters on either side
  have htake := congrArg (List.takeWhile isWordChar) h
  rw [List.takeWhile_append_of_pos ha, List.takeWhile_append_of_pos hb, hstop hs, hstop ht,
    List.append_nil, List.append_nil] at htake
  refine ⟨htake, ?_⟩
  rw [htake] at h
  exact List.append_cancel_left h

/-! ### Values that are written in one word -/

/-- Whether a value is written in one word. -/
def isAtom : Json → Bool
  | .null | .bool _ | .int _ | .double _ => true
  | .str _ | .arr _ | .obj _ => false

theorem isWordChar_of_mem_inline {v : Json} (hv : v.isAtom = true) {comma colon : List Char}
    {c : Char} (hc : c ∈ v.inline comma colon) : isWordChar c = true := by
  cases v with
  | null =>
    have hall : "null".toList.all isWordChar = true := by decide
    exact List.all_eq_true.mp hall c hc
  | bool b =>
    have hall : ("true".toList ++ "false".toList).all isWordChar = true := by decide
    cases b
    · exact List.all_eq_true.mp hall c (List.mem_append_right _ hc)
    · exact List.all_eq_true.mp hall c (List.mem_append_left _ hc)
  | int n =>
    rcases mem_intDigits hc with rfl | hd
    · decide
    · exact isWordChar_of_isDigit hd
  | double x =>
    have hmarks : (Decimal.marks ++ Double.wordLetters).all isWordChar = true := by decide
    rw [List.all_eq_true] at hmarks
    rcases Double.mem_write_data hc with hd | hm | hl
    · exact isWordChar_of_isDigit hd
    · exact hmarks c (List.mem_append_left _ hm)
    · exact hmarks c (List.mem_append_right _ hl)
  | str s => exact absurd hv (by simp [isAtom])
  | arr vs => exact absurd hv (by simp [isAtom])
  | obj fs => exact absurd hv (by simp [isAtom])

theorem ne_intDigits {word : List Char} {c : Char} (hc : c ∈ word) (hminus : c ≠ '-')
    (hd : c.isDigit = false) (n : Int) : word ≠ intDigits n := by
  intro h
  rw [h] at hc
  rcases mem_intDigits hc with rfl | hdigit
  · exact hminus rfl
  · exact absurd hdigit (by simp [hd])

/-- A word with a letter that stands in no double is none. -/
theorem ne_write_data {word : List Char} {c : Char} (hc : c ∈ word) (hd : c.isDigit = false)
    (hother : c ∉ Decimal.marks ++ Double.wordLetters) (x : Double) : word ≠ x.write .data := by
  intro h
  rw [h] at hc
  rcases Double.mem_write_data hc with hdigit | hm | hl
  · exact absurd hdigit (by simp [hd])
  · exact hother (List.mem_append_left _ hm)
  · exact hother (List.mem_append_right _ hl)

theorem intDigits_ne_write_data (n : Int) (x : Double) : intDigits n ≠ x.write .data := by
  obtain ⟨c, hc, hcase⟩ := Double.exists_mem_write_data x
  refine (ne_intDigits hc ?_ ?_ n).symm
  · rcases hcase with rfl | rfl | rfl | rfl <;> decide
  · rcases hcase with rfl | rfl | rfl | rfl <;> decide

/-- The word of null, which no other value has. -/
theorem eq_null_of_inline {u : Json} (hu : u.isAtom = true) {comma colon : List Char}
    (h : Json.null.inline comma colon = u.inline comma colon) : Json.null = u := by
  have hmem : 'u' ∈ Json.null.inline comma colon := by simp [inline]
  cases u with
  | null => rfl
  | bool b => cases b <;> simp [inline] at h
  | int n => exact absurd h (ne_intDigits hmem (by decide) (by decide) n)
  | double x => exact absurd h (ne_write_data hmem (by decide) (by decide) x)
  | _ => exact absurd hu (by simp [isAtom])

/-- The word of a truth value, which no other value has. -/
theorem eq_bool_of_inline {b : Bool} {u : Json} (hu : u.isAtom = true) {comma colon : List Char}
    (h : (Json.bool b).inline comma colon = u.inline comma colon) : Json.bool b = u := by
  -- a letter of the word that stands in no number and in no other word for a double
  obtain ⟨c, hmem, hminus, hd, hother⟩ : ∃ c ∈ (Json.bool b).inline comma colon,
      c ≠ '-' ∧ c.isDigit = false ∧ c ∉ Decimal.marks ++ Double.wordLetters := by
    cases b
    · exact ⟨'s', by simp [inline], by decide, by decide, by decide⟩
    · exact ⟨'r', by simp [inline], by decide, by decide, by decide⟩
  cases u with
  | null => cases b <;> simp [inline] at h
  | bool b' => cases b <;> cases b' <;> simp_all [inline]
  | int n => exact absurd h (ne_intDigits hmem hminus hd n)
  | double x => exact absurd h (ne_write_data hmem hd hother x)
  | _ => exact absurd hu (by simp [isAtom])

/-- Values that are written in one word are determined by it. -/
theorem inline_injective_of_isAtom {v w : Json} (hv : v.isAtom = true) (hw : w.isAtom = true)
    {comma colon : List Char} (h : v.inline comma colon = w.inline comma colon) : v = w := by
  cases v with
  | null => exact eq_null_of_inline hw h
  | bool b => exact eq_bool_of_inline hw h
  | int n =>
    cases w with
    | null => exact (eq_null_of_inline hv h.symm).symm
    | bool b => exact (eq_bool_of_inline hv h.symm).symm
    | int m => rw [intDigits_injective h]
    | double x => exact absurd h (intDigits_ne_write_data n x)
    | _ => exact absurd hw (by simp [isAtom])
  | double x =>
    cases w with
    | null => exact (eq_null_of_inline hv h.symm).symm
    | bool b => exact (eq_bool_of_inline hv h.symm).symm
    | int m => exact absurd h.symm (intDigits_ne_write_data m x)
    | double y => rw [Double.write_data_injective h]
    | _ => exact absurd hw (by simp [isAtom])
  | _ => exact absurd hv (by simp [isAtom])

theorem inline_ne_nil_of_isAtom {v : Json} (hv : v.isAtom = true) (comma colon : List Char) :
    v.inline comma colon ≠ [] := by
  cases v with
  | bool b => cases b <;> simp [inline]
  | int n => exact intDigits_ne_nil n
  | double x =>
    obtain ⟨c, hc, -⟩ := Double.exists_mem_write_data x
    exact List.ne_nil_of_mem hc
  | null => simp [inline]
  | _ => exact absurd hv (by simp [isAtom])

/-! ### Items with commas between them -/

section Separated

variable {α : Type} {write : α → List Char} {close : Char}

/-- Texts of items with commas between them. -/
def separated (write : α → List Char) : List α → List Char
  | [] => []
  | [x] => write x
  | x :: xs => write x ++ ',' :: separated write xs

/-- What stands behind the first of several items. -/
def afterFirst (write : α → List Char) : List α → List Char
  | [] => []
  | x :: xs => ',' :: separated write (x :: xs)

theorem separated_cons (x : α) (xs : List α) :
    separated write (x :: xs) = write x ++ afterFirst write xs := by
  cases xs <;> simp [separated, afterFirst]

/-- The text of an item can be read off a longer text, whatever item the other text begins with. -/
def ReadsOff (write : α → List Char) (x : α) : Prop :=
  ∀ (y : α) (s t : List Char), Ends s → Ends t → write x ++ s = write y ++ t → x = y ∧ s = t

theorem ends_afterFirst (hclose : isEnd close = true) (xs : List α) (s : List Char) :
    Ends (afterFirst write xs ++ close :: s) := by
  cases xs with
  | nil => exact ends_cons hclose s
  | cons x xs => exact ends_cons rfl _

/-- Items between commas can be read off up to the mark that closes them, if each item can be and no
item begins with that mark. -/
theorem separated_append_inj (hclose : isEnd close = true) (hcomma : close ≠ ',')
    (hfirst : ∀ x s t, write x ++ s ≠ close :: t) {xs ys : List α}
    (hread : ∀ x ∈ xs, ReadsOff write x) {s t : List Char}
    (h : separated write xs ++ close :: s = separated write ys ++ close :: t) :
    xs = ys ∧ s = t := by
  induction xs generalizing ys with
  | nil =>
    cases ys with
    | nil => exact ⟨rfl, (List.cons.inj h).2⟩
    | cons y ys =>
      rw [separated_cons, List.append_assoc] at h
      exact absurd h.symm (hfirst y _ _)
  | cons x xs ih =>
    rw [List.forall_mem_cons] at hread
    cases ys with
    | nil =>
      rw [separated_cons, List.append_assoc] at h
      exact absurd h (hfirst x _ _)
    | cons y ys =>
      rw [separated_cons, separated_cons, List.append_assoc, List.append_assoc] at h
      obtain ⟨rfl, hrest⟩ :=
        hread.1 y _ _ (ends_afterFirst hclose xs s) (ends_afterFirst hclose ys t) h
      -- a comma stands behind both first items, or the closing mark behind both
      cases xs with
      | nil =>
        cases ys with
        | nil => exact ⟨rfl, (List.cons.inj hrest).2⟩
        | cons y ys => exact absurd (List.cons.inj hrest).1 hcomma
      | cons x xs =>
        cases ys with
        | nil => exact absurd (List.cons.inj hrest).1.symm hcomma
        | cons y ys =>
          obtain ⟨htail, hst⟩ := ih hread.2 (List.cons.inj hrest).2
          exact ⟨by rw [htail], hst⟩

end Separated

/-- The text of a field. -/
def writeField (f : String × Json) : List Char := quoted f.1 ++ ':' :: f.2.inline [','] [':']

theorem inlineItems_eq_separated (vs : List Json) :
    inlineItems [','] [':'] vs = separated (inline [','] [':']) vs := by
  induction vs with
  | nil => rfl
  | cons v vs ih =>
    cases vs with
    | nil => simp [inlineItems, separated]
    | cons w ws => simp [inlineItems, ih, separated]

theorem inlineFields_eq_separated (fs : List (String × Json)) :
    inlineFields [','] [':'] fs = separated writeField fs := by
  induction fs with
  | nil => rfl
  | cons f fs ih =>
    obtain ⟨k, v⟩ := f
    cases fs with
    | nil => simp [inlineFields, separated, writeField]
    | cons g gs => simp [inlineFields, ih, separated, writeField]

theorem readsOff_writeField {f : String × Json} (h : ReadsOff (inline [','] [':']) f.2) :
    ReadsOff writeField f := by
  intro g s t hs ht htext
  rw [writeField, writeField, List.append_assoc, List.append_assoc] at htext
  obtain ⟨hkey, hrest⟩ := quoted_append_inj htext
  obtain ⟨hvalue, hst⟩ := h g.2 s t hs ht (List.cons.inj hrest).2
  exact ⟨Prod.ext hkey hvalue, hst⟩

/-! ### Values in a text -/

/-- No value begins with the mark that closes an array. -/
theorem inline_append_ne_bracket (v : Json) (s t : List Char) :
    v.inline [','] [':'] ++ s ≠ ']' :: t := by
  intro h
  by_cases hv : v.isAtom = true
  -- a word does not begin with a mark, and the others begin with their own
  · obtain ⟨c, cs, hcons⟩ := List.exists_cons_of_ne_nil (inline_ne_nil_of_isAtom hv [','] [':'])
    have hc : isWordChar c = true :=
      isWordChar_of_mem_inline hv (by rw [hcons]; exact List.mem_cons_self)
    rw [hcons] at h
    rw [(List.cons.inj h).1] at hc
    exact absurd hc (by decide)
  · cases v <;> simp_all [inline, quoted, isAtom]

/-- A value that is no word begins with its own mark, so no word begins as it does. -/
theorem isAtom_of_inline_append_eq {v w : Json} {s t : List Char} (hv : v.isAtom = true)
    (h : v.inline [','] [':'] ++ s = w.inline [','] [':'] ++ t) : w.isAtom = true := by
  obtain ⟨c, cs, hcons⟩ := List.exists_cons_of_ne_nil (inline_ne_nil_of_isAtom hv [','] [':'])
  have hc : isWordChar c = true :=
    isWordChar_of_mem_inline hv (by rw [hcons]; exact List.mem_cons_self)
  rw [hcons] at h
  have hne : ∀ d : Char, isWordChar d = false → c ≠ d := by
    rintro d hd rfl
    exact absurd hc (by simp [hd])
  cases w with
  | str u => exact absurd (List.cons.inj h).1 (hne '"' (by decide))
  | arr ws => exact absurd (List.cons.inj h).1 (hne '[' (by decide))
  | obj gs => exact absurd (List.cons.inj h).1 (hne '{' (by decide))
  | _ => rfl

/-- A word can be read off any text that it begins. -/
theorem inline_append_inj_of_isAtom {v w : Json} {s t : List Char} (hv : v.isAtom = true)
    (hs : Ends s) (ht : Ends t)
    (h : v.inline [','] [':'] ++ s = w.inline [','] [':'] ++ t) : v = w ∧ s = t := by
  have hw := isAtom_of_inline_append_eq hv h
  obtain ⟨hword, hrest⟩ := word_append_inj (fun _ => isWordChar_of_mem_inline hv)
    (fun _ => isWordChar_of_mem_inline hw) hs ht h
  exact ⟨inline_injective_of_isAtom hv hw hword, hrest⟩

mutual

/-- A value can be read off any text that it begins. -/
theorem inline_append_inj : ∀ v : Json, ReadsOff (inline [','] [':']) v
  | .null => fun _ _ _ hs ht h => inline_append_inj_of_isAtom rfl hs ht h
  | .bool _ => fun _ _ _ hs ht h => inline_append_inj_of_isAtom rfl hs ht h
  | .int _ => fun _ _ _ hs ht h => inline_append_inj_of_isAtom rfl hs ht h
  | .double _ => fun _ _ _ hs ht h => inline_append_inj_of_isAtom rfl hs ht h
  | .str a => by
    intro w s t hs ht h
    by_cases hw : w.isAtom = true
    · exact absurd (isAtom_of_inline_append_eq hw h.symm) (by simp [isAtom])
    · cases w with
      | str b =>
        obtain ⟨hab, hrest⟩ := quoted_append_inj (by simpa [inline] using h)
        exact ⟨by rw [hab], hrest⟩
      | arr ws => simp [inline, quoted] at h
      | obj gs => simp [inline, quoted] at h
      | _ => exact absurd rfl hw
  | .arr vs => by
    intro w s t hs ht h
    by_cases hw : w.isAtom = true
    · exact absurd (isAtom_of_inline_append_eq hw h.symm) (by simp [isAtom])
    · cases w with
      | str b => simp [inline, quoted] at h
      | arr ws =>
        have hitems : separated (inline [','] [':']) vs ++ ']' :: s
            = separated (inline [','] [':']) ws ++ ']' :: t := by
          simpa [inline, inlineItems_eq_separated] using h
        obtain ⟨hvw, hst⟩ := separated_append_inj rfl (by decide) inline_append_ne_bracket
          (readsOff_items vs) hitems
        exact ⟨by rw [hvw], hst⟩
      | obj gs => simp [inline] at h
      | _ => exact absurd rfl hw
  | .obj fs => by
    intro w s t hs ht h
    by_cases hw : w.isAtom = true
    · exact absurd (isAtom_of_inline_append_eq hw h.symm) (by simp [isAtom])
    · cases w with
      | str b => simp [inline, quoted] at h
      | arr ws => simp [inline] at h
      | obj gs =>
        have hfields : separated writeField fs ++ '}' :: s
            = separated writeField gs ++ '}' :: t := by
          simpa [inline, inlineFields_eq_separated] using h
        have hfirst : ∀ f s t, writeField f ++ s ≠ '}' :: t := by
          intro f s t heq
          exact absurd (List.cons.inj heq).1 (by decide)
        obtain ⟨hfg, hst⟩ := separated_append_inj rfl (by decide) hfirst
          (readsOff_fields fs) hfields
        exact ⟨by rw [hfg], hst⟩
      | _ => exact absurd rfl hw

theorem readsOff_items : ∀ vs : List Json, ∀ v ∈ vs, ReadsOff (inline [','] [':']) v
  | [] => fun _ hv => absurd hv List.not_mem_nil
  | v :: vs => List.forall_mem_cons.mpr ⟨inline_append_inj v, readsOff_items vs⟩

theorem readsOff_fields : ∀ fs : List (String × Json), ∀ f ∈ fs, ReadsOff writeField f
  | [] => fun _ hf => absurd hf List.not_mem_nil
  | (_, v) :: fs => List.forall_mem_cons.mpr
      ⟨readsOff_writeField (inline_append_inj v), readsOff_fields fs⟩

end

/-! ### Canonical texts -/

/-- Two values have one canonical text exactly when they differ at most in the order of fields. -/
theorem canonical_eq_canonical_iff {v w : Json} : v.canonical = w.canonical ↔ Reordered v w := by
  rw [← sorted_eq_sorted_iff]
  constructor
  · intro h
    -- the canonical text is followed by nothing
    have htext : v.sorted.inline [','] [':'] ++ [] = w.sorted.inline [','] [':'] ++ [] := by
      rw [List.append_nil, List.append_nil]
      exact String.ofList_injective h
    have hnil : Ends [] := by simp [Ends]
    exact (inline_append_inj _ _ _ _ hnil hnil htext).1
  · intro h
    rw [canonical, canonical, h]

end FrameExport.Json
