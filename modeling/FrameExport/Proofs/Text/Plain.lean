import FrameExport.Page.Basic
import FrameExport.Proofs.Double.Written
import FrameExport.Proofs.Style.Collection

/-!
# Texts of plain characters

Numbers, lengths, classes and colours are written with letters, digits and a few marks.  `Text.Word`
says that a text has no other characters, and `Text.Plain` admits round brackets besides.  No such
character ends a declaration, an attribute or a rule, so what is written so can stand anywhere.

Of the values of a typography, the plain ones are written as words (`Json.word_styled`): null, truth
values and numbers.  Texts, arrays and objects may have any character.
-/

namespace FrameExport

namespace Text

/-- Letters, digits and the marks of numbers, lengths and colours. -/
def isWordChar (c : Char) : Bool := c.isAlphanum || "-.,#% ".toList.contains c

/-- The characters of words and round brackets. -/
def isPlainChar (c : Char) : Bool := isWordChar c || c = '(' || c = ')'

/-- A text of the characters of words. -/
def Word (cs : List Char) : Prop := ∀ c ∈ cs, isWordChar c = true

/-- A text of the characters of words and round brackets. -/
def Plain (cs : List Char) : Prop := ∀ c ∈ cs, isPlainChar c = true

instance (cs : List Char) : Decidable (Word cs) := List.decidableBAll ..

instance (cs : List Char) : Decidable (Plain cs) := List.decidableBAll ..

variable {cs ds : List Char}

theorem isWordChar_of_isDigit {c : Char} (h : c.isDigit = true) : isWordChar c = true := by
  simp [isWordChar, Char.isAlphanum, h]

theorem word_append : Word (cs ++ ds) ↔ Word cs ∧ Word ds := List.forall_mem_append

theorem plain_append : Plain (cs ++ ds) ↔ Plain cs ∧ Plain ds := List.forall_mem_append

/-- What holds of texts and of what stands between them holds of the whole, if it holds of texts in
a row. -/
theorem intercalate_induction {P : List Char → Prop} {sep : List Char} {css : List (List Char)}
    (hnil : P []) (happend : ∀ {cs ds}, P cs → P ds → P (cs ++ ds)) (hsep : P sep)
    (h : ∀ cs ∈ css, P cs) : P (sep.intercalate css) := by
  induction css with
  | nil => exact hnil
  | cons cs css ih =>
    obtain ⟨hcs, hrest⟩ := List.forall_mem_cons.mp h
    cases css with
    | nil =>
      rw [List.intercalate_singleton]
      exact hcs
    | cons ds css =>
      rw [List.intercalate_cons_cons]
      exact happend (happend hcs hsep) (ih hrest)

theorem word_intercalate {sep : List Char} {css : List (List Char)} (hsep : Word sep)
    (h : ∀ cs ∈ css, Word cs) : Word (sep.intercalate css) :=
  intercalate_induction (fun _ hc => absurd hc List.not_mem_nil)
    (fun hcs hds => word_append.mpr ⟨hcs, hds⟩) hsep h

theorem Word.plain (h : Word cs) : Plain cs := by
  intro c hc
  rw [isPlainChar, h c hc]
  rfl

/-- A character that is not plain does not occur in a plain text. -/
theorem Plain.notMem {c : Char} (h : Plain cs) (hc : isPlainChar c = false) : c ∉ cs := by
  intro hmem
  rw [h c hmem] at hc
  cases hc

end Text

open Text

/-! ### Numbers -/

theorem word_digitsOf (n : Nat) : Word (digitsOf n) :=
  fun _ hc => isWordChar_of_isDigit (isDigit_of_mem_digitsOf hc)

theorem word_intDigits (n : Int) : Word (intDigits n) := by
  intro c hc
  rcases mem_intDigits hc with rfl | hdigit
  · decide
  · exact isWordChar_of_isDigit hdigit

theorem word_signed {cs : List Char} (s : Bool) (h : Word cs) : Word (signed s cs) := by
  unfold signed
  split
  · exact List.forall_mem_cons.mpr ⟨by decide, h⟩
  · exact h

theorem Decimal.word_positional (d : Decimal) : Word (d.positional []) := by
  intro c hc
  rcases mem_positional hc with hdigit | rfl | hnone
  · exact isWordChar_of_isDigit hdigit
  · decide
  · cases hnone

namespace Double

theorem word_writePlain (x : Double) : Word x.writePlain := by
  unfold writePlain
  split
  · exact word_intDigits _
  · decide
  · exact word_signed _ (by decide)
  · exact word_signed _ (Decimal.word_positional _)

theorem word_writeFixed (places : Nat) (x : Double) : Word (x.writeFixed places) := by
  cases x with
  | nan => exact (by decide : Word "nan".toList)
  | infinite s => exact word_signed s (by decide)
  | finite s r =>
    have hzeros : ∀ n, Word (List.replicate n '0') := by
      intro n c hc
      rw [List.eq_of_mem_replicate hc]
      rfl
    refine word_signed s (word_append.mpr ⟨word_digitsOf _, ?_⟩)
    refine List.forall_mem_cons.mpr ⟨by decide, ?_⟩
    exact word_append.mpr ⟨hzeros _, word_digitsOf _⟩

end Double

/-! ### Values of a typography -/

namespace Json

/-- Null, a truth value or a number. -/
def isPlain : Json → Bool
  | .null | .bool _ | .int _ | .double _ => true
  | _ => false

theorem word_styled {v : Json} (h : v.isPlain = true) : Word v.styled := by
  cases v with
  | null => exact (by decide : Word "None".toList)
  | bool b => cases b with
    | true => exact (by decide : Word "true".toList)
    | false => exact (by decide : Word "false".toList)
  | int n => exact word_intDigits n
  | double x => exact x.word_writePlain
  | str | arr | obj => cases h

end Json

namespace Typography

/-- The keys of size, weight, line height and spacing. -/
def metricKeys : List String := ["fontSize", "fontWeight", "lineHeightPx", "letterSpacing"]

/-- Size, weight, line height and spacing are null, truth values or numbers. -/
def PlainMetrics (style : Fields) : Prop := ∀ key ∈ metricKeys, (style.get key).isPlain = true

instance (style : Fields) : Decidable (PlainMetrics style) := List.decidableBAll ..

theorem word_pixels {v : Json} (h : v.isPlain = true) :
    Word (pixels v).toList := by
  rw [pixels, String.toList_ofList, word_append]
  exact ⟨Json.word_styled h, by decide⟩

theorem word_alignment (v : Json) : Word (alignment v).toList := by
  unfold alignment
  split
  · decide
  · split
    · decide
    · split <;> decide

/-- The properties of size, weight, line height and spacing. -/
def metricProperties : List String := ["font-size", "font-weight", "line-height", "letter-spacing"]

theorem eq_of_mem_declare {property : String} {value : Json → String} {v : Json} {d : Declaration}
    (hd : d ∈ declare property value v) : d = ⟨property, value v⟩ := by
  unfold declare at hd
  split at hd
  · exact List.mem_singleton.mp hd
  · cases hd

/-- Each of the metrics gives a property the value of one of the keys, with or without a unit. -/
theorem exists_key_of_mem_metrics {style : Fields} {d : Declaration} (hd : d ∈ metrics style) :
    d.property ∈ metricProperties ∧ ∃ key ∈ metricKeys, ∃ unit ∈ ["px", ""],
      d.value.toList = (style.get key).styled ++ unit.toList := by
  have hpixels : ∀ v : Json, (pixels v).toList = v.styled ++ "px".toList :=
    fun v => String.toList_ofList
  rw [metrics, List.mem_append, List.mem_append, List.mem_append] at hd
  rcases hd with ((hd | hd) | hd) | hd
  · obtain rfl := eq_of_mem_declare hd
    exact ⟨List.mem_of_elem_eq_true rfl, "fontSize", by decide, "px", by decide, hpixels _⟩
  · obtain rfl := eq_of_mem_declare hd
    refine ⟨List.mem_of_elem_eq_true rfl, "fontWeight", by decide, "", by decide, ?_⟩
    show (String.ofList (style.get "fontWeight").styled).toList = _
    rw [String.toList_ofList]
    exact (List.append_nil _).symm
  · obtain rfl := eq_of_mem_declare hd
    exact ⟨List.mem_of_elem_eq_true rfl, "lineHeightPx", by decide, "px", by decide, hpixels _⟩
  · obtain rfl := eq_of_mem_declare hd
    exact ⟨List.mem_of_elem_eq_true rfl, "letterSpacing", by decide, "px", by decide, hpixels _⟩

end Typography

theorem Node.word_pixels (x : Double) : Word (Node.pixels x).toList := Typography.word_pixels rfl

/-! ### Classes and colours -/

theorem StyleKind.word_className (kind : StyleKind) (i : Nat) : Word (kind.className i).toList := by
  have hletters : Word kind.letters.toList := by
    cases kind <;> decide
  rw [toList_className, word_append]
  exact ⟨hletters, List.forall_mem_cons.mpr ⟨by decide, word_digitsOf i⟩⟩

theorem Color.plain_text (color : Color) : Plain color.text.toList := by
  cases color with
  | transparent => decide
  | rgba r g b a =>
    simp only [Color.text, String.toList_append, String.toList_ofList, plain_append]
    have hcomma : Plain ",".toList := by decide
    exact ⟨⟨⟨⟨⟨⟨⟨⟨by decide, (word_intDigits r).plain⟩, hcomma⟩, (word_intDigits g).plain⟩, hcomma⟩,
      (word_intDigits b).plain⟩, hcomma⟩, (a.word_writeFixed 3).plain⟩, by decide⟩

end FrameExport
