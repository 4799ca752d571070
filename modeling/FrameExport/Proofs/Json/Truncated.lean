import FrameExport.Proofs.Json.Nesting
import FrameExport.Proofs.Json.ReadNumber
import Mathlib.Data.List.TakeWhile

/-!
# Texts that are cut short

The reader closes every array, object and quoted text that it has opened before it finds a value
(`reaches_reads`), so a text that holds a value leaves nothing open.  Behind the beginning of an
object something is open up to its last mark.  Hence no beginning of what is written of an object
holds a value, but for the whole (`exists_read_eq_error_of_prefix`).
-/

namespace FrameExport.Json

variable {c : Char} {cs rest rest' t word : List Char} {p q r : Position} {n : Nat} {v : Json}

/-! ### What the reader leaves behind -/

/-- The rest of a text is reached behind some characters, which lead from one position to
another. -/
def Reaches (p : Position) (cs : List Char) (q : Position) (rest : List Char) : Prop :=
  ∃ t, cs = t ++ rest ∧ p.after t = q

theorem Reaches.refl (p : Position) (cs : List Char) : Reaches p cs p cs := ⟨[], rfl, rfl⟩

theorem Reaches.trans (h : Reaches p cs q rest) (h' : Reaches q rest r rest') :
    Reaches p cs r rest' := by
  obtain ⟨s, rfl, rfl⟩ := h
  obtain ⟨t, rfl, rfl⟩ := h'
  exact ⟨s ++ t, (List.append_assoc ..).symm, Position.after_append ..⟩

theorem Reaches.cons (h : Reaches (p.step c) cs q rest) : Reaches p (c :: cs) q rest := by
  obtain ⟨t, rfl, rfl⟩ := h
  exact ⟨c :: t, rfl, rfl⟩

theorem reaches_of_isNeutral (n : Nat) (ht : ∀ c ∈ t, isNeutral c = true) (rest : List Char) :
    Reaches ⟨n, .outside⟩ (t ++ rest) ⟨n, .outside⟩ rest :=
  ⟨t, rfl, after_outside_of_isNeutral n ht⟩

/-! ### White space and words -/

theorem isNeutral_of_isSpace (hc : isSpace c = true) : isNeutral c = true := by
  simp only [isSpace, Bool.or_eq_true, decide_eq_true_eq] at hc
  rcases hc with ((rfl | rfl) | rfl) | rfl <;> rfl

theorem isNeutral_of_isDigit (hc : c.isDigit = true) : isNeutral c = true :=
  isNeutral_of_isWordChar (isWordChar_of_isDigit hc)

/-- Neutral characters are skipped. -/
theorem reaches_dropWhile {kind : Char → Bool} (hkind : ∀ c, kind c = true → isNeutral c = true)
    (n : Nat) (cs : List Char) :
    Reaches ⟨n, .outside⟩ cs ⟨n, .outside⟩ (cs.dropWhile kind) := by
  have hneutral : ∀ c ∈ cs.takeWhile kind, isNeutral c = true :=
    fun c hc => hkind c (List.mem_takeWhile_imp hc)
  have hreach := reaches_of_isNeutral n hneutral (cs.dropWhile kind)
  rwa [List.takeWhile_append_dropWhile] at hreach

theorem reaches_skipSpace (n : Nat) (cs : List Char) :
    Reaches ⟨n, .outside⟩ cs ⟨n, .outside⟩ (skipSpace cs) :=
  reaches_dropWhile (fun _ => isNeutral_of_isSpace) n cs

theorem eq_append_of_after? : ∀ {word cs : List Char}, after? word cs = some rest →
    cs = word ++ rest
  | [], _, h => Option.some.inj h
  | _ :: _, [], h => by cases h
  | w :: ws, c :: cs, h => by
    unfold after? at h
    split at h
    · rename_i hwc
      rw [hwc, eq_append_of_after? h, List.cons_append]
    · cases h

theorem reaches_of_after? (n : Nat) (hword : ∀ c ∈ word, isNeutral c = true)
    (h : after? word cs = some rest) : Reaches ⟨n, .outside⟩ cs ⟨n, .outside⟩ rest := by
  rw [eq_append_of_after? h]
  exact reaches_of_isNeutral n hword rest

/-! ### Numbers -/

theorem reaches_splitWhole (n : Nat) (cs : List Char) :
    Reaches ⟨n, .outside⟩ cs ⟨n, .outside⟩ (splitWhole cs).2 := by
  unfold splitWhole
  split
  · exact (Reaches.refl _ _).cons
  · exact reaches_dropWhile (fun _ => isNeutral_of_isDigit) n _

theorem reaches_splitFraction (n : Nat) (cs : List Char) :
    Reaches ⟨n, .outside⟩ cs ⟨n, .outside⟩ (splitFraction cs).2 := by
  unfold splitFraction
  split
  · rename_i d ds
    split
    · rename_i hd
      refine Reaches.cons (Reaches.cons ?_)
      rw [step_outside_of_isNeutral n (by decide), step_outside_of_isNeutral n (isNeutral_of_isDigit hd)]
      exact reaches_dropWhile (fun _ => isNeutral_of_isDigit) n _
    · exact Reaches.refl _ _
  · exact Reaches.refl _ _

/-- A sign is skipped if there is one. -/
theorem reaches_splitSign (n : Nat) (cs : List Char) :
    Reaches ⟨n, .outside⟩ cs ⟨n, .outside⟩ (Numeral.splitSign cs).2 := by
  unfold Numeral.splitSign
  split
  · exact (Reaches.refl _ _).cons
  · exact (Reaches.refl _ _).cons
  · exact Reaches.refl _ _

theorem reaches_splitExponent (n : Nat) (cs : List Char) :
    Reaches ⟨n, .outside⟩ cs ⟨n, .outside⟩ (splitExponent cs).2 := by
  cases cs with
  | nil => exact Reaches.refl _ _
  | cons c cs =>
    rw [splitExponent_cons]
    split
    · rename_i hmark
      split
      · exact Reaches.refl _ _
      · have hneutral : isNeutral c = true := by rcases hmark with rfl | rfl <;> rfl
        refine Reaches.cons ?_
        rw [step_outside_of_isNeutral n hneutral]
        exact (reaches_splitSign n cs).trans (reaches_dropWhile (fun _ => isNeutral_of_isDigit) n _)
    · exact Reaches.refl _ _

theorem reaches_readNumber (n : Nat) (h : readNumber cs = .ok (v, rest)) :
    Reaches ⟨n, .outside⟩ cs ⟨n, .outside⟩ rest := by
  unfold readNumber at h
  split at h
  rename_i negative unsigned hsign
  have hunsigned : Reaches ⟨n, .outside⟩ cs ⟨n, .outside⟩ unsigned := by
    split at hsign <;> cases hsign
    · exact (Reaches.refl _ _).cons
    · exact Reaches.refl _ _
  have hparts := ((hunsigned.trans (reaches_splitWhole n _)).trans
    (reaches_splitFraction n _)).trans (reaches_splitExponent n _)
  -- whatever the number is, the rest is what follows its three parts
  dsimp only at h
  split at h
  · cases h
  split at h
  · split at h <;> cases h
    exact hparts
  · cases h
    exact hparts

theorem reaches_readAtom (n : Nat) (h : readAtom cs = .ok (v, rest)) :
    Reaches ⟨n, .outside⟩ cs ⟨n, .outside⟩ rest := by
  unfold readAtom at h
  -- the six words in the order in which they are tried
  iterate 6
    split at h
    · rename_i hword
      cases h
      exact reaches_of_after? n (List.all_eq_true.mp rfl) hword
  exact reaches_readNumber n h

/-! ### Quoted texts -/

/-- A hexadecimal digit is no mark. -/
theorem step_quoted_of_hexValue? {c : Char} {m : Nat} (hc : hexValue? c = some m) (n : Nat) :
    Position.step ⟨n, .quoted⟩ c = ⟨n, .quoted⟩ := by
  have hquote : c ≠ '"' := by
    rintro rfl
    cases hc
  have hbackslash : c ≠ '\\' := by
    rintro rfl
    cases hc
  simp [Position.step, hquote, hbackslash]

theorem reaches_hexValue4? {a b c d : Char} {m : Nat} (hm : hexValue4? a b c d = some m)
    (h : Reaches ⟨n, .quoted⟩ cs q rest) :
    Reaches ⟨n, .quoted⟩ ('\\' :: 'u' :: a :: b :: c :: d :: cs) q rest := by
  simp only [hexValue4?, Option.bind_eq_bind, Option.bind_eq_some_iff] at hm
  obtain ⟨_, ha, _, hb, _, hc, _, hd, -⟩ := hm
  have hdigits : Position.after ⟨n, .quoted⟩ ['\\', 'u', a, b, c, d] = ⟨n, .quoted⟩ := by
    show Position.after ⟨n, .quoted⟩ [a, b, c, d] = _
    simp only [Position.after_cons, step_quoted_of_hexValue? ha, step_quoted_of_hexValue? hb,
      step_quoted_of_hexValue? hc, step_quoted_of_hexValue? hd]
    rfl
  exact Reaches.trans ⟨['\\', 'u', a, b, c, d], rfl, hdigits⟩ h

/-- A quoted text is left behind its closing mark. -/
theorem reaches_readText (n : Nat) {start acc s : List Char}
    (h : readText start acc cs = .ok (s, rest)) :
    Reaches ⟨n, .quoted⟩ cs ⟨n, .outside⟩ rest := by
  fun_induction readText start acc cs
  case case2 =>
    cases h
    exact (Reaches.refl _ _).cons
  case case7 hhigh _ _ hlow _ ih => exact reaches_hexValue4? hhigh (reaches_hexValue4? hlow (ih h))
  case case8 hhigh _ _ _ _ ih => exact reaches_hexValue4? hhigh (ih h)
  case case9 hhigh _ ih => exact reaches_hexValue4? hhigh (ih h)
  case case10 hhigh ih => exact reaches_hexValue4? hhigh (ih h)
  case case12 ih => exact Reaches.trans ⟨['\\', _], rfl, rfl⟩ (ih h)
  case case15 c cs hquote hend _ hescape _ ih =>
    have hbackslash : c ≠ '\\' := by
      rintro rfl
      cases cs with
      | nil => exact hend rfl rfl
      | cons d cs => exact hescape d cs rfl rfl
    have hstep : Position.step ⟨n, .quoted⟩ c = ⟨n, .quoted⟩ := by
      simp [Position.step, show c ≠ '"' from hquote, hbackslash]
    refine Reaches.cons ?_
    rw [hstep]
    exact ih h
  all_goals cases h

/-! ### Values -/

/-- Whatever the reader finds is closed where the reader stops. -/
theorem reaches_reads (fuel : Nat) :
    (∀ {cs rest : List Char} {v : Json} (n : Nat), readValue fuel cs = .ok (v, rest) →
        Reaches ⟨n, .outside⟩ cs ⟨n, .outside⟩ rest)
      ∧ (∀ {acc : List Json} {cs rest : List Char} {v : Json} (n : Nat),
          readItems fuel acc cs = .ok (v, rest) →
            Reaches ⟨n + 1, .outside⟩ cs ⟨n, .outside⟩ rest)
      ∧ ∀ {acc : Fields} {cs rest : List Char} {v : Json} (n : Nat),
          readFields fuel acc cs = .ok (v, rest) →
            Reaches ⟨n + 1, .outside⟩ cs ⟨n, .outside⟩ rest := by
  induction fuel with
  | zero => exact ⟨fun _ => nofun, fun _ => nofun, fun _ => nofun⟩
  | succ fuel ih =>
    obtain ⟨ihValue, ihItems, ihFields⟩ := ih
    refine ⟨?value, ?items, ?fields⟩
    case value =>
      intro cs rest v n h
      unfold readValue at h
      split at h
      · split at h
        · rename_i hread
          cases h
          exact Reaches.cons (reaches_readText n hread)
        · cases h
      · rename_i rest'
        refine Reaches.cons (Reaches.trans (reaches_skipSpace (n + 1) rest') ?_)
        split at h
        · rename_i hskip
          cases h
          rw [hskip]
          exact Reaches.cons (Reaches.refl _ _)
        · exact ihItems n h
      · rename_i rest'
        refine Reaches.cons (Reaches.trans (reaches_skipSpace (n + 1) rest') ?_)
        split at h
        · rename_i hskip
          cases h
          rw [hskip]
          exact Reaches.cons (Reaches.refl _ _)
        · exact ihFields n h
      · exact reaches_readAtom n h
    case items =>
      intro acc cs rest v n h
      unfold readItems at h
      split at h
      · cases h
      rename_i rest' hread
      refine ((ihValue (n + 1) hread).trans (reaches_skipSpace (n + 1) rest')).trans ?_
      split at h
      · rename_i hskip
        cases h
        rw [hskip]
        exact Reaches.cons (Reaches.refl _ _)
      · rename_i more hskip
        rw [hskip]
        exact Reaches.cons ((reaches_skipSpace (n + 1) more).trans (ihItems n h))
      · cases h
    case fields =>
      intro acc cs rest v n h
      unfold readFields at h
      split at h
      case h_2 => cases h
      split at h
      · cases h
      rename_i rest' hkey
      refine Reaches.cons (((reaches_readText (n + 1) hkey).trans
        (reaches_skipSpace (n + 1) rest')).trans ?_)
      split at h
      case h_2 => cases h
      rename_i behind hcolon
      rw [hcolon]
      refine Reaches.cons ((reaches_skipSpace (n + 1) behind).trans ?_)
      split at h
      · cases h
      rename_i rest'' hread
      refine ((ihValue (n + 1) hread).trans (reaches_skipSpace (n + 1) rest'')).trans ?_
      split at h
      · rename_i hskip
        cases h
        rw [hskip]
        exact Reaches.cons (Reaches.refl _ _)
      · rename_i more hskip
        rw [hskip]
        exact Reaches.cons ((reaches_skipSpace (n + 1) more).trans (ihFields n h))
      · cases h

/-- A text that holds a value leaves nothing open. -/
theorem after_eq_of_readChars (h : readChars cs = .ok v) :
    Position.after ⟨0, .outside⟩ cs = ⟨0, .outside⟩ := by
  unfold readChars at h
  split at h
  · cases h
  rename_i rest hread
  have hreach := ((reaches_skipSpace 0 cs).trans ((reaches_reads _).1 0 hread)).trans
    (reaches_skipSpace 0 rest)
  split at h
  case h_2 => cases h
  rename_i hend
  rw [hend] at hreach
  obtain ⟨t, rfl, ht⟩ := hreach
  rwa [List.append_nil]

/-! ### Objects that are cut short -/

/-- Something is open behind every beginning of an object but the empty one and the whole. -/
theorem depth_pos_of_prefix_indented {fs : Fields} {level : Nat}
    (hp : t <+: (Json.obj fs).indented level) (hempty : t ≠ [])
    (hwhole : t ≠ (Json.obj fs).indented level) :
    0 < (Position.after ⟨0, .outside⟩ t).depth := by
  obtain ⟨body, hbody, hobj⟩ : ∃ body, Nested body
      ∧ (Json.obj fs).indented level = '{' :: (body ++ ['}']) := by
    cases fs with
    | nil => exact ⟨[], nested_nil, rfl⟩
    | cons f fs =>
      refine ⟨indentedFields (level + 1) (f :: fs) ++ lineStart level,
        (nested_indentedFields _ _).append (nested_lineStart level), ?_⟩
      rw [indented, List.append_assoc]
  rw [hobj] at hp hwhole
  obtain ⟨c, t, rfl⟩ := List.exists_cons_of_ne_nil hempty
  obtain ⟨rfl, htail⟩ := List.cons_prefix_cons.mp hp
  rcases List.prefix_concat_iff.mp htail with rfl | hin
  · exact absurd rfl hwhole
  · exact hbody.depth_lt (Or.inr rfl) 0 hin

/-- No beginning of what is written of an object holds a value, but for the whole. -/
theorem exists_read_eq_error_of_prefix {fs : Fields} {s : String}
    (hp : s.toList <+: (Json.obj fs).pretty.toList) (hne : s ≠ (Json.obj fs).pretty) :
    ∃ e, Json.read s = .error e := by
  rw [pretty, String.toList_ofList] at hp
  have hwhole : s.toList ≠ (Json.obj fs).indented 0 := by
    intro h
    apply hne
    rw [pretty, ← h, String.ofList_toList]
  unfold Json.read
  split
  · rename_i v hread
    have hclosed := after_eq_of_readChars hread
    -- the empty text holds no value, and behind any other something is still open
    have hempty : s.toList ≠ [] := by
      intro h
      rw [h] at hread
      cases hread
    have hopen := depth_pos_of_prefix_indented hp hempty hwhole
    rw [hclosed] at hopen
    exact absurd hopen (lt_irrefl 0)
  · exact ⟨_, rfl⟩
  · exact ⟨_, rfl⟩

end FrameExport.Json
