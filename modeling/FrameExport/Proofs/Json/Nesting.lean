import FrameExport.Proofs.Json.Canonical

/-!
# How deep a text is nested

Going through a text from left to right, the arrays and objects that are open can be counted by their
marks alone, if it is known which characters stand in quoted texts (`Position.after`).  A text is
`Nested` if it leaves as many of them open as it found, and nowhere in between has fewer.  What is
written of a value is nested (`nested_indented`), and a nested text between two brackets has
something open behind every beginning of it but the empty one and the whole (`Nested.depth_lt`).
-/

namespace FrameExport.Json

/-! ### Positions -/

/-- Where a character stands. -/
inductive Place where
  /-- Between the parts of values. -/
  | outside
  /-- In a quoted text. -/
  | quoted
  /-- Behind a backslash in a quoted text. -/
  | escaped
deriving DecidableEq

/-- A position in a text: how many arrays and objects are open, and where the next character
stands. -/
@[ext] structure Position where
  depth : Nat
  place : Place
deriving DecidableEq

namespace Position

/-- The position behind a character. -/
def step (p : Position) (c : Char) : Position :=
  match p.place with
  | .outside =>
    if c = '"' then ⟨p.depth, .quoted⟩
    else if c = '[' ∨ c = '{' then ⟨p.depth + 1, .outside⟩
    else if c = ']' ∨ c = '}' then ⟨p.depth - 1, .outside⟩
    else p
  | .quoted =>
    if c = '"' then ⟨p.depth, .outside⟩
    else if c = '\\' then ⟨p.depth, .escaped⟩
    else p
  | .escaped => ⟨p.depth, .quoted⟩

/-- The position behind a text. -/
def after (p : Position) (t : List Char) : Position := t.foldl step p

theorem after_append (p : Position) (s t : List Char) : p.after (s ++ t) = (p.after s).after t :=
  List.foldl_append

theorem after_cons (p : Position) (c : Char) (t : List Char) :
    p.after (c :: t) = (p.step c).after t := rfl

end Position

variable {c : Char} {s t p q : List Char} {n : Nat}

/-! ### Neutral characters -/

/-- A character that begins and ends nothing. -/
def isNeutral (c : Char) : Bool :=
  c != '"' && c != '[' && c != '{' && c != ']' && c != '}'

theorem step_outside_of_isNeutral (n : Nat) (hc : isNeutral c = true) :
    Position.step ⟨n, .outside⟩ c = ⟨n, .outside⟩ := by
  simp only [isNeutral, Bool.and_eq_true, bne_iff_ne] at hc
  simp [Position.step, hc]

theorem after_outside_of_isNeutral (n : Nat) (ht : ∀ c ∈ t, isNeutral c = true) :
    Position.after ⟨n, .outside⟩ t = ⟨n, .outside⟩ := by
  induction t with
  | nil => rfl
  | cons c t ih =>
    obtain ⟨hc, ht⟩ := List.forall_mem_cons.mp ht
    rw [Position.after_cons, step_outside_of_isNeutral n hc, ih ht]

theorem isNeutral_of_isWordChar (hc : isWordChar c = true) : isNeutral c = true := by
  simp only [isWordChar, isEnd, Bool.and_eq_true, Bool.not_eq_true', Bool.or_eq_false_iff,
    bne_iff_ne, beq_eq_false_iff_ne] at hc
  simp [isNeutral, hc]

/-! ### Nested texts -/

/-- The text closes what it opens, and nothing else. -/
structure Nested (t : List Char) : Prop where
  after_eq : ∀ n, Position.after ⟨n, .outside⟩ t = ⟨n, .outside⟩
  depth_le : ∀ n p, p <+: t → n ≤ (Position.after ⟨n, .outside⟩ p).depth

theorem nested_of_isNeutral (ht : ∀ c ∈ t, isNeutral c = true) : Nested t where
  after_eq n := after_outside_of_isNeutral n ht
  depth_le n p hp := by rw [after_outside_of_isNeutral n fun c hc => ht c (hp.subset hc)]

theorem nested_nil : Nested [] := nested_of_isNeutral fun _ hc => absurd hc List.not_mem_nil

/-- A beginning of two texts ends in the first one, or takes all of it. -/
theorem prefix_append_cases (h : p <+: s ++ t) : p <+: s ∨ ∃ q, p = s ++ q ∧ q <+: t := by
  obtain ⟨r, h⟩ := h
  rcases List.append_eq_append_iff.mp h with ⟨q, hs, -⟩ | ⟨q, hp, ht⟩
  · exact Or.inl ⟨q, hs.symm⟩
  · exact Or.inr ⟨q, hp, r, ht.symm⟩

theorem Nested.append (hs : Nested s) (ht : Nested t) : Nested (s ++ t) where
  after_eq n := by rw [Position.after_append, hs.after_eq, ht.after_eq]
  depth_le n p hp := by
    rcases prefix_append_cases hp with hp | ⟨q, rfl, hq⟩
    · exact hs.depth_le n p hp
    · rw [Position.after_append, hs.after_eq]
      exact ht.depth_le n q hq

theorem Nested.cons_of_isNeutral (hc : isNeutral c = true) (ht : Nested t) : Nested (c :: t) :=
  (nested_of_isNeutral (List.forall_mem_singleton.mpr hc)).append ht

/-- An array or object whose members are nested has something open up to its closing mark. -/
theorem Nested.depth_lt {first : Char} (hfirst : first = '[' ∨ first = '{') (ht : Nested t) (n : Nat)
    (hp : p <+: t) : n < (Position.after ⟨n, .outside⟩ (first :: p)).depth := by
  have hstep : Position.step ⟨n, .outside⟩ first = ⟨n + 1, .outside⟩ := by
    rcases hfirst with rfl | rfl <;> rfl
  rw [Position.after_cons, hstep]
  exact ht.depth_le (n + 1) p hp

theorem Nested.enclose {first last : Char} (hfirst : first = '[' ∨ first = '{')
    (hlast : last = ']' ∨ last = '}') (ht : Nested t) : Nested (first :: (t ++ [last])) := by
  have hopen : ∀ n, Position.step ⟨n, .outside⟩ first = ⟨n + 1, .outside⟩ := by
    rcases hfirst with rfl | rfl <;> exact fun _ => rfl
  have hclose : ∀ n, Position.step ⟨n + 1, .outside⟩ last = ⟨n, .outside⟩ := by
    rcases hlast with rfl | rfl <;> exact fun _ => rfl
  have hall : ∀ n, Position.after ⟨n, .outside⟩ (first :: (t ++ [last])) = ⟨n, .outside⟩ := by
    intro n
    rw [Position.after_cons, hopen, Position.after_append, ht.after_eq]
    exact hclose n
  refine ⟨hall, fun n p hp => ?_⟩
  cases p with
  | nil => exact le_rfl
  | cons c p =>
    obtain ⟨rfl, htail⟩ := List.cons_prefix_cons.mp hp
    rcases List.prefix_concat_iff.mp htail with rfl | hin
    · rw [hall]
    · exact (ht.depth_lt hfirst n hin).le

/-! ### Quoted texts -/

/-- The text can stand between quotation marks: no mark in it ends the quotation. -/
structure WithinQuotes (t : List Char) : Prop where
  after_eq : ∀ n, Position.after ⟨n, .quoted⟩ t = ⟨n, .quoted⟩
  depth_eq : ∀ n p, p <+: t → (Position.after ⟨n, .quoted⟩ p).depth = n

theorem withinQuotes_nil : WithinQuotes [] where
  after_eq _ := rfl
  depth_eq n p hp := by rw [List.prefix_nil.mp hp]; rfl

theorem WithinQuotes.cons (ht : WithinQuotes t) (hquote : c ≠ '"') (hbackslash : c ≠ '\\') :
    WithinQuotes (c :: t) := by
  have hstep : ∀ n, Position.step ⟨n, .quoted⟩ c = ⟨n, .quoted⟩ := by
    intro n
    simp [Position.step, hquote, hbackslash]
  refine ⟨fun n => ?_, fun n p hp => ?_⟩
  · rw [Position.after_cons, hstep, ht.after_eq]
  · cases p with
    | nil => rfl
    | cons d p =>
      obtain ⟨rfl, htail⟩ := List.cons_prefix_cons.mp hp
      rw [Position.after_cons, hstep]
      exact ht.depth_eq n p htail

/-- Whatever stands behind a backslash is part of the quotation. -/
theorem WithinQuotes.escape (ht : WithinQuotes t) (c : Char) : WithinQuotes ('\\' :: c :: t) := by
  refine ⟨fun n => ht.after_eq n, fun n p hp => ?_⟩
  match p with
  | [] => rfl
  | [d] =>
    obtain ⟨rfl, -⟩ := List.cons_prefix_cons.mp hp
    rfl
  | d :: e :: p =>
    obtain ⟨rfl, htail⟩ := List.cons_prefix_cons.mp hp
    exact ht.depth_eq n p (List.cons_prefix_cons.mp htail).2

theorem WithinQuotes.append_of_forall (ht : WithinQuotes t)
    (hs : ∀ c ∈ s, c ≠ '"' ∧ c ≠ '\\') : WithinQuotes (s ++ t) := by
  induction s with
  | nil => exact ht
  | cons c s ih =>
    obtain ⟨hc, hs⟩ := List.forall_mem_cons.mp hs
    exact (ih hs).cons hc.1 hc.2

theorem WithinQuotes.escapeChar_append (ht : WithinQuotes t) (c : Char) :
    WithinQuotes (escapeChar c ++ t) := by
  unfold escapeChar
  -- seven characters are written as a backslash and a letter
  iterate 7
    split
    · exact ht.escape _
  split
  · rename_i hlow
    have hdigits : ∀ n < 0x20, (hexDigits 4 n).all (fun d => d != '"' && d != '\\') = true := by
      decide
    have hplain := List.all_eq_true.mp (hdigits c.toNat hlow)
    exact (ht.append_of_forall fun d hd => by simpa using hplain d hd).escape 'u'
  · rename_i hquote hbackslash _ _ _ _ _ _
    exact ht.cons hquote hbackslash

theorem withinQuotes_flatMap_escapeChar (cs : List Char) :
    WithinQuotes (cs.flatMap escapeChar) := by
  induction cs with
  | nil => exact withinQuotes_nil
  | cons c cs ih => exact ih.escapeChar_append c

theorem WithinQuotes.nested (ht : WithinQuotes t) : Nested ('"' :: (t ++ ['"'])) := by
  have hall : ∀ n, Position.after ⟨n, .outside⟩ ('"' :: (t ++ ['"'])) = ⟨n, .outside⟩ := by
    intro n
    show Position.after ⟨n, .quoted⟩ (t ++ ['"']) = ⟨n, .outside⟩
    rw [Position.after_append, ht.after_eq]
    rfl
  refine ⟨hall, fun n p hp => ?_⟩
  cases p with
  | nil => exact le_rfl
  | cons c p =>
    obtain ⟨rfl, htail⟩ := List.cons_prefix_cons.mp hp
    rcases List.prefix_concat_iff.mp htail with rfl | hin
    · rw [hall]
    · exact (ht.depth_eq n p hin).ge

theorem nested_quoted (k : String) : Nested (quoted k) :=
  (withinQuotes_flatMap_escapeChar k.toList).nested

/-! ### Written values -/

theorem nested_lineStart (level : Nat) : Nested (lineStart level) := by
  apply nested_of_isNeutral
  intro c hc
  rcases List.mem_cons.mp hc with rfl | hc
  · rfl
  · rw [List.eq_of_mem_replicate hc]
    rfl

/-- A value that is written in one word is written so over several lines. -/
theorem nested_of_isAtom {v : Json} (hv : v.isAtom = true) : Nested (v.inline [] []) :=
  nested_of_isNeutral fun _ hc => isNeutral_of_isWordChar (isWordChar_of_mem_inline hv hc)

mutual

/-- What is written of a value closes what it opens. -/
theorem nested_indented : ∀ (v : Json) (level : Nat), Nested (v.indented level)
  | .null, _ => nested_of_isAtom (v := .null) rfl
  | .bool b, _ => nested_of_isAtom (v := .bool b) rfl
  | .int n, _ => nested_of_isAtom (v := .int n) rfl
  | .double x, _ => nested_of_isAtom (v := .double x) rfl
  | .str s, _ => nested_quoted s
  | .arr [], _ => nested_nil.enclose (Or.inl rfl) (Or.inl rfl)
  | .arr (v :: vs), level => by
    have hitems := nested_indentedItems (v :: vs) (level + 1)
    have harr := (hitems.append (nested_lineStart level)).enclose (Or.inl rfl) (Or.inl rfl)
    rwa [List.append_assoc] at harr
  | .obj [], _ => nested_nil.enclose (Or.inr rfl) (Or.inr rfl)
  | .obj (f :: fs), level => by
    have hfields := nested_indentedFields (f :: fs) (level + 1)
    have hobj := (hfields.append (nested_lineStart level)).enclose (Or.inr rfl) (Or.inr rfl)
    rwa [List.append_assoc] at hobj

theorem nested_indentedItems : ∀ (vs : List Json) (level : Nat), Nested (indentedItems level vs)
  | [], _ => nested_nil
  | [v], level => (nested_lineStart level).append (nested_indented v level)
  | v :: w :: vs, level =>
    (nested_lineStart level).append ((nested_indented v level).append
      ((nested_indentedItems (w :: vs) level).cons_of_isNeutral rfl))

theorem nested_indentedFields :
    ∀ (fs : List (String × Json)) (level : Nat), Nested (indentedFields level fs)
  | [], _ => nested_nil
  | [(k, v)], level =>
    (nested_lineStart level).append ((nested_quoted k).append
      (((nested_indented v level).cons_of_isNeutral rfl).cons_of_isNeutral rfl))
  | (k, v) :: f :: fs, level =>
    (nested_lineStart level).append ((nested_quoted k).append
      ((((nested_indented v level).append
        ((nested_indentedFields (f :: fs) level).cons_of_isNeutral rfl)).cons_of_isNeutral
          rfl).cons_of_isNeutral rfl))

end

end FrameExport.Json
