import FrameExport.Proofs.Json.Canonical
import FrameExport.Proofs.Json.Fields
import FrameExport.Proofs.Json.ReadNumber

/-!
# Values at the front of a text

`ReadsAs t v` says that the reader finds the value `v` at the front of any text that begins with `t`,
and leaves the rest.  Words, numbers and quoted texts are read as what was written
(`readsAs_intDigits`, `readsAs_write`, `readsAs_quoted`).  Arrays and objects are read from their
members one by one, with white space behind the marks and in front of the closing one (`ReadsItems`,
`ReadsFields`).

Fuel of twice the length of the text is enough for a value, and one more for the members of an array
or object, since each level of nesting has two marks of its own.
-/

namespace FrameExport.Json

variable {c : Char} {cs rest t ts ws ws' : List Char} {v : Json} {vs : List Json} {k : String}
  {fs : Fields}

/-! ### White space -/

/-- A text of white space. -/
def Blank (ws : List Char) : Prop := ∀ c ∈ ws, isSpace c = true

theorem blank_nil : Blank [] := fun _ hc => absurd hc List.not_mem_nil

/-- A text begins with a character that is no white space and closes nothing. -/
def Opens (t : List Char) : Prop :=
  ∃ c cs, t = c :: cs ∧ isSpace c = false ∧ c ≠ ']' ∧ c ≠ '}'

theorem Opens.append (h : Opens t) (rest : List Char) : Opens (t ++ rest) := by
  obtain ⟨c, cs, rfl, hc⟩ := h
  exact ⟨c, cs ++ rest, rfl, hc⟩

theorem skipSpace_cons (hc : isSpace c = false) (cs : List Char) :
    skipSpace (c :: cs) = c :: cs := by
  simp [skipSpace, hc]

theorem Blank.skipSpace_append (hws : Blank ws) (cs : List Char) :
    skipSpace (ws ++ cs) = skipSpace cs :=
  List.dropWhile_append_of_pos hws

theorem Opens.skipSpace (h : Opens t) : skipSpace t = t := by
  obtain ⟨c, cs, rfl, hc, -⟩ := h
  exact skipSpace_cons hc cs

theorem stops_cons (hdigit : c.isDigit = false) (hother : c ∉ ['.', 'e', 'E']) (cs : List Char) :
    Stops (c :: cs) := by
  intro d hd
  obtain rfl : c = d := by simpa using hd
  simp only [List.mem_cons, List.not_mem_nil, or_false, not_or] at hother
  exact ⟨hdigit, hother⟩

theorem Blank.stops_append (hws : Blank ws) (hr : Stops rest) : Stops (ws ++ rest) := by
  cases ws with
  | nil => exact hr
  | cons c ws =>
    have hc : isSpace c = true := hws c List.mem_cons_self
    simp only [isSpace, Bool.or_eq_true, decide_eq_true_eq] at hc
    rcases hc with ((rfl | rfl) | rfl) | rfl <;> exact stops_cons (by decide) (by decide) _

/-! ### Words and numbers -/

/-- A text that begins with a digit, or with a sign and a digit, is no word. -/
theorem readAtom_signed (negative : Bool) (hc : c.isDigit = true) (cs : List Char) :
    readAtom (signed negative (c :: cs)) = readNumber (signed negative (c :: cs)) := by
  have hne : ∀ d : Char, d.isDigit = false → ¬ d = c := fun d hd => (Double.ne_of_isDigit hc hd).symm
  have hn := hne 'n' (by decide)
  have ht := hne 't' (by decide)
  have hf := hne 'f' (by decide)
  have hN := hne 'N' (by decide)
  have hI := hne 'I' (by decide)
  have hminus := hne '-' (by decide)
  cases negative <;> simp [signed, readAtom, after?, hn, ht, hf, hN, hI, hminus]

/-! ### Values at the front of a text -/

/-- The reader finds the value at the front of every text that begins so, and leaves the rest. -/
structure ReadsAs (t : List Char) (v : Json) : Prop where
  opens : Opens t
  reads : ∀ {fuel : Nat} {rest : List Char}, 2 * t.length ≤ fuel → Stops rest →
    readValue fuel (t ++ rest) = .ok (v, rest)

/-- Characters that begin a text, an array or an object. -/
theorem readValue_of_isWordChar (fuel : Nat) (hc : isWordChar c = true) (cs : List Char) :
    readValue (fuel + 1) (c :: cs) = readAtom (c :: cs) := by
  have hne : ∀ d : Char, isWordChar d = false → c ≠ d := by
    rintro d hd rfl
    exact absurd hc (by simp [hd])
  have hquote := hne '"' (by decide)
  have hbracket := hne '[' (by decide)
  have hbrace := hne '{' (by decide)
  simp [readValue, hquote, hbracket, hbrace]

/-- A word is read at once. -/
theorem readsAs_word (hc : isWordChar c = true) (hspace : isSpace c = false)
    (h : ∀ rest, Stops rest → readAtom (c :: cs ++ rest) = .ok (v, rest)) :
    ReadsAs (c :: cs) v where
  opens := by
    refine ⟨c, cs, rfl, hspace, ?_, ?_⟩
    · rintro rfl
      exact absurd hc (by decide)
    · rintro rfl
      exact absurd hc (by decide)
  reads := by
    intro fuel rest hfuel hr
    obtain ⟨n, rfl⟩ : ∃ n, fuel = n + 1 := ⟨fuel - 1, by rw [List.length_cons] at hfuel; omega⟩
    rw [List.cons_append, readValue_of_isWordChar n hc]
    exact h rest hr

theorem isSpace_of_isDigit (hc : c.isDigit = true) : isSpace c = false := by
  have hne : ∀ d : Char, d.isDigit = false → c ≠ d := fun d hd => Double.ne_of_isDigit hc hd
  have h1 := hne ' ' (by decide)
  have h2 := hne '\n' (by decide)
  have h3 := hne '\t' (by decide)
  have h4 := hne '\r' (by decide)
  simp [isSpace, *]

/-- A word that begins with a digit, or with a sign and a digit, is read as a number. -/
theorem readsAs_signed (negative : Bool) (hc : c.isDigit = true)
    (h : ∀ rest, Stops rest → readNumber (signed negative (c :: cs) ++ rest) = .ok (v, rest)) :
    ReadsAs (signed negative (c :: cs)) v := by
  have hread : ∀ rest, Stops rest →
      readAtom (signed negative (c :: cs) ++ rest) = .ok (v, rest) := by
    intro rest hr
    rw [← h rest hr, signed_append]
    exact readAtom_signed negative hc _
  cases negative with
  | true => exact readsAs_word (by decide) (by decide) hread
  | false => exact readsAs_word (isWordChar_of_isDigit hc) (isSpace_of_isDigit hc) hread

theorem readsAs_intDigits {n : Int} (hn : (digitsOf n.natAbs).length ≤ maxIntDigits) :
    ReadsAs (intDigits n) (.int n) := by
  have hread : ∀ rest, Stops rest → readNumber (intDigits n ++ rest) = .ok (.int n, rest) :=
    fun _ => readNumber_intDigits hn
  obtain ⟨c, cs, hcs, hc⟩ := head_digitsOf n.natAbs
  have hsigned : intDigits n = signed (decide (n < 0)) (c :: cs) := by
    simp [intDigits, signed, hcs]
  rw [hsigned] at hread ⊢
  exact readsAs_signed _ hc hread

theorem readsAs_write (x : Double) : ReadsAs (x.write .data) (.double x) := by
  cases x with
  | nan => exact readsAs_word (c := 'N') (by decide) (by decide) fun _ _ => rfl
  | infinite negative =>
    cases negative with
    | true => exact readsAs_word (c := '-') (by decide) (by decide) fun _ _ => rfl
    | false => exact readsAs_word (c := 'I') (by decide) (by decide) fun _ _ => rfl
  | finite negative r =>
    have hread : ∀ rest, Stops rest → readNumber ((Double.finite negative r).write .data ++ rest)
        = .ok (.double (.finite negative r), rest) := fun _ => Double.readNumber_write negative r
    obtain ⟨c, cs, hcs, hc⟩ := Decimal.head_written (Double.shortest r)
    rw [Double.write, hcs] at hread ⊢
    exact readsAs_signed negative hc hread

theorem readsAs_quoted (s : String) : ReadsAs (quoted s) (.str s) where
  opens := ⟨'"', _, rfl, by decide, by decide, by decide⟩
  reads := by
    intro fuel rest hfuel _
    obtain ⟨n, rfl⟩ : ∃ n, fuel = n + 1 :=
      ⟨fuel - 1, by simp only [quoted, List.length_cons] at hfuel; omega⟩
    have hread := readText_quoted (quoted s ++ rest) s rest
    simp only [quoted, List.cons_append, List.append_assoc, List.nil_append] at hread ⊢
    rw [readValue, hread]
    simp only [String.ofList_toList]

/-! ### Arrays -/

/-- The reader finds the items up to the closing bracket behind the text. -/
structure ReadsItems (t : List Char) (vs : List Json) : Prop where
  opens : Opens t
  reads : ∀ {fuel : Nat} {acc : List Json} {rest : List Char}, 2 * t.length + 1 ≤ fuel →
    readItems fuel acc (t ++ ']' :: rest) = .ok (.arr (acc.reverse ++ vs), rest)

theorem ReadsItems.single (h : ReadsAs t v) (hws : Blank ws) : ReadsItems (t ++ ws) [v] where
  opens := h.opens.append ws
  reads := by
    intro fuel acc rest hfuel
    rw [List.length_append] at hfuel
    obtain ⟨n, rfl⟩ : ∃ n, fuel = n + 1 := ⟨fuel - 1, by omega⟩
    have hclose : Stops (']' :: rest) := stops_cons (by decide) (by decide) rest
    rw [readItems, List.append_assoc, h.reads (by omega) (hws.stops_append hclose)]
    simp only [hws.skipSpace_append, skipSpace_cons (by decide : isSpace ']' = false),
      List.reverse_cons]

theorem ReadsItems.cons (hrest : ReadsItems ts vs) (h : ReadsAs t v) (hws : Blank ws) :
    ReadsItems (t ++ ',' :: (ws ++ ts)) (v :: vs) where
  opens := h.opens.append _
  reads := by
    intro fuel acc rest hfuel
    simp only [List.length_append, List.length_cons] at hfuel
    obtain ⟨n, rfl⟩ : ∃ n, fuel = n + 1 := ⟨fuel - 1, by omega⟩
    have hcomma : Stops (',' :: (ws ++ ts ++ ']' :: rest)) := stops_cons (by decide) (by decide) _
    have hread : readItems n (v :: acc) (ts ++ ']' :: rest)
        = .ok (.arr ((v :: acc).reverse ++ vs), rest) := hrest.reads (by omega)
    rw [readItems, List.append_assoc, List.cons_append, h.reads (by omega) hcomma]
    simp only [skipSpace_cons (by decide : isSpace ',' = false)]
    rw [List.append_assoc, hws.skipSpace_append, (hrest.opens.append _).skipSpace, hread]
    simp

theorem readsAs_arr_nil (hws : Blank ws) : ReadsAs ('[' :: (ws ++ [']'])) (.arr []) where
  opens := ⟨'[', _, rfl, by decide, by decide, by decide⟩
  reads := by
    intro fuel rest hfuel _
    obtain ⟨n, rfl⟩ : ∃ n, fuel = n + 1 :=
      ⟨fuel - 1, by simp only [List.length_cons] at hfuel; omega⟩
    rw [List.cons_append, readValue, List.append_assoc, hws.skipSpace_append]
    simp [skipSpace_cons (by decide : isSpace ']' = false)]

/-- Items between brackets are an array. -/
theorem ReadsItems.arr (h : ReadsItems t vs) (hws : Blank ws) :
    ReadsAs ('[' :: (ws ++ (t ++ [']']))) (.arr vs) where
  opens := ⟨'[', _, rfl, by decide, by decide, by decide⟩
  reads := by
    intro fuel rest hfuel _
    simp only [List.length_cons, List.length_append, List.length_nil] at hfuel
    obtain ⟨n, rfl⟩ : ∃ n, fuel = n + 1 := ⟨fuel - 1, by omega⟩
    have hread : readItems n [] (t ++ ']' :: rest) = .ok (.arr vs, rest) := h.reads (by omega)
    have hskip : skipSpace (ws ++ (t ++ [']']) ++ rest) = t ++ ']' :: rest := by
      rw [List.append_assoc, hws.skipSpace_append, List.append_assoc, (h.opens.append _).skipSpace]
      rfl
    rw [List.cons_append, readValue, hskip]
    obtain ⟨c, cs, rfl, -, hc, -⟩ := h.opens
    rw [List.cons_append] at hread ⊢
    simpa [hc] using hread

/-! ### Objects -/

/-- The reader finds the fields up to the closing brace behind the text. -/
structure ReadsFields (t : List Char) (fs : Fields) : Prop where
  opens : Opens t
  reads : ∀ {fuel : Nat} {acc : Fields} {rest : List Char}, 2 * t.length + 1 ≤ fuel →
    readFields fuel acc (t ++ '}' :: rest) = .ok (ofRead (acc.reverse ++ fs), rest)

/-- A field is the last one or is followed by others, according to the mark behind its value. -/
theorem readFields_quoted (k : String) (fuel : Nat) (acc : Fields) (h : ReadsAs t v) (hws : Blank ws)
    (hr : Stops rest) (hlength : 2 * t.length ≤ fuel) :
    (skipSpace rest = '}' :: cs → readFields (fuel + 1) acc (quoted k ++ ':' :: (ws ++ (t ++ rest)))
        = .ok (ofRead ((k, v) :: acc).reverse, cs))
      ∧ (skipSpace rest = ',' :: cs → readFields (fuel + 1) acc (quoted k ++ ':' :: (ws ++ (t ++ rest)))
        = readFields fuel ((k, v) :: acc) (skipSpace cs)) := by
  have hread := readText_quoted (quoted k ++ ':' :: (ws ++ (t ++ rest))) k (':' :: (ws ++ (t ++ rest)))
  simp only [quoted, List.cons_append, List.append_assoc, List.nil_append] at hread ⊢
  rw [readFields, hread]
  simp only [skipSpace_cons (by decide : isSpace ':' = false), hws.skipSpace_append,
    (h.opens.append rest).skipSpace, h.reads hlength hr, String.ofList_toList]
  constructor
  · intro hclose
    simp only [hclose]
  · intro hcomma
    simp only [hcomma]

theorem opens_quoted (k : String) (cs : List Char) : Opens (quoted k ++ cs) :=
  ⟨'"', _, rfl, by decide, by decide, by decide⟩

theorem ReadsFields.single (k : String) (h : ReadsAs t v) (hws : Blank ws) (hws' : Blank ws') :
    ReadsFields (quoted k ++ ':' :: (ws ++ (t ++ ws'))) [(k, v)] where
  opens := opens_quoted k _
  reads := by
    intro fuel acc rest hfuel
    simp only [List.length_append, List.length_cons] at hfuel
    obtain ⟨n, rfl⟩ : ∃ n, fuel = n + 1 := ⟨fuel - 1, by omega⟩
    have hclose : Stops (ws' ++ '}' :: rest) :=
      hws'.stops_append (stops_cons (by decide) (by decide) rest)
    have hend : skipSpace (ws' ++ '}' :: rest) = '}' :: rest := by
      rw [hws'.skipSpace_append, skipSpace_cons (by decide)]
    have hread := (readFields_quoted k n acc h hws hclose (by omega)).1 hend
    simp only [List.append_assoc, List.cons_append] at hread ⊢
    rw [hread, List.reverse_cons]

theorem ReadsFields.cons (hrest : ReadsFields ts fs) (k : String) (h : ReadsAs t v)
    (hws : Blank ws) (hws' : Blank ws') :
    ReadsFields (quoted k ++ ':' :: (ws ++ (t ++ ',' :: (ws' ++ ts)))) ((k, v) :: fs) where
  opens := opens_quoted k _
  reads := by
    intro fuel acc rest hfuel
    simp only [List.length_append, List.length_cons] at hfuel
    obtain ⟨n, rfl⟩ : ∃ n, fuel = n + 1 := ⟨fuel - 1, by omega⟩
    have hcomma : Stops (',' :: (ws' ++ (ts ++ '}' :: rest))) :=
      stops_cons (by decide) (by decide) _
    have hread := (readFields_quoted k n acc h hws hcomma (by omega)).2 (skipSpace_cons (by decide) _)
    have hnext : readFields n ((k, v) :: acc) (ts ++ '}' :: rest)
        = .ok (ofRead (((k, v) :: acc).reverse ++ fs), rest) := hrest.reads (by omega)
    rw [hws'.skipSpace_append, (hrest.opens.append _).skipSpace, hnext] at hread
    simp only [List.append_assoc, List.cons_append] at hread ⊢
    rw [hread]
    simp

theorem readsAs_obj_nil (hws : Blank ws) : ReadsAs ('{' :: (ws ++ ['}'])) (.obj []) where
  opens := ⟨'{', _, rfl, by decide, by decide, by decide⟩
  reads := by
    intro fuel rest hfuel _
    obtain ⟨n, rfl⟩ : ∃ n, fuel = n + 1 :=
      ⟨fuel - 1, by simp only [List.length_cons] at hfuel; omega⟩
    rw [List.cons_append, readValue, List.append_assoc, hws.skipSpace_append]
    simp [skipSpace_cons (by decide : isSpace '}' = false)]

/-- Fields with distinct keys are read as they stand. -/
theorem ofRead_of_nodup (hkeys : (fs.map Prod.fst).Nodup) : ofRead fs = .obj fs := by
  rw [ofRead, Fields.foldl_put_eq_append [] (by simpa using hkeys), List.nil_append]

/-- Fields with distinct keys between braces are an object. -/
theorem ReadsFields.obj (h : ReadsFields t fs) (hkeys : (fs.map Prod.fst).Nodup)
    (hws : Blank ws) : ReadsAs ('{' :: (ws ++ (t ++ ['}']))) (.obj fs) where
  opens := ⟨'{', _, rfl, by decide, by decide, by decide⟩
  reads := by
    intro fuel rest hfuel _
    simp only [List.length_cons, List.length_append, List.length_nil] at hfuel
    obtain ⟨n, rfl⟩ : ∃ n, fuel = n + 1 := ⟨fuel - 1, by omega⟩
    have hread : readFields n [] (t ++ '}' :: rest) = .ok (ofRead fs, rest) := h.reads (by omega)
    rw [ofRead_of_nodup hkeys] at hread
    have hskip : skipSpace (ws ++ (t ++ ['}']) ++ rest) = t ++ '}' :: rest := by
      rw [List.append_assoc, hws.skipSpace_append, List.append_assoc, (h.opens.append _).skipSpace]
      rfl
    rw [List.cons_append, readValue, hskip]
    obtain ⟨c, cs, rfl, -, -, hc⟩ := h.opens
    rw [List.cons_append] at hread ⊢
    simpa [hc] using hread

/-! ### Whole texts -/

/-- A text that reads as a value holds this value alone. -/
theorem ReadsAs.read (h : ReadsAs t v) : Json.read (String.ofList t) = .ok v := by
  have hread : readValue (2 * t.length + 2) (t ++ []) = .ok (v, []) :=
    h.reads (by omega) (by simp [Stops])
  rw [List.append_nil] at hread
  have hchars : readChars t = .ok v := by
    rw [readChars, h.opens.skipSpace, hread]
    rfl
  rw [Json.read, String.toList_ofList, hchars]

end FrameExport.Json
