import FrameExport.Text.SafeName
import Mathlib.Data.String.Basic

/-!
# Safe names

A safe name (`Text.IsSafeName`) is made of safe characters, does not begin with a point and is not
empty.  `safeName` gives only safe names (`isSafeName_safeName`) and leaves them as they are
(`safeName_eq_self`), so it tells apart the texts that are safe names already.  Safe characters take
one byte each (`utf8ByteSize_of_isSafeName`).
-/

namespace FrameExport.Text

variable {c : Char} {cs : List Char} {s : String}

/-! ### Safe characters -/

theorem bounds_of_isSafeChar (h : isSafeChar c = true) : 0x21 ≤ c.toNat ∧ c.toNat ≤ 0x7E := by
  have hrange : ∀ {a b : Char}, 0x21 ≤ a.toNat → b.toNat ≤ 0x7E → a.val ≤ c.val → c.val ≤ b.val →
      0x21 ≤ c.toNat ∧ c.toNat ≤ 0x7E := fun ha hb hac hcb =>
    ⟨ha.trans (UInt32.le_iff_toNat_le.mp hac), (UInt32.le_iff_toNat_le.mp hcb).trans hb⟩
  simp only [isSafeChar, Char.isAlphanum, Bool.or_eq_true, beq_iff_eq] at h
  rcases h with (((hletter | hdigit) | rfl) | rfl) | rfl
  · rcases Bool.or_eq_true_iff.mp hletter with hupper | hlower
    · obtain ⟨hA, hZ⟩ := of_decide_eq_true hupper
      exact hrange (by decide) (by decide) hA hZ
    · obtain ⟨ha, hz⟩ := Bool.and_eq_true_iff.mp hlower
      exact hrange (by decide) (by decide) (of_decide_eq_true ha) (of_decide_eq_true hz)
  · obtain ⟨h0, h9⟩ := Bool.and_eq_true_iff.mp hdigit
    exact hrange (by decide) (by decide) (of_decide_eq_true h0) (of_decide_eq_true h9)
  all_goals decide

/-- What is dropped at the ends of a key is never part of a safe name. -/
theorem isBlank_of_isSafeChar (h : isSafeChar c = true) : isBlank c = false := by
  have hbounds := bounds_of_isSafeChar h
  simp only [isBlank, isWhiteSpace, Bool.or_eq_false_iff, Bool.and_eq_false_iff, beq_eq_false_iff_ne,
    decide_eq_false_iff_not]
  omega

/-! ### Safe names -/

/-- The text can serve as a file name everywhere. -/
structure IsSafeName (s : String) : Prop where
  ne_nil : s.toList ≠ []
  head?_ne : s.toList.head? ≠ some '.'
  isSafeChar : ∀ c ∈ s.toList, isSafeChar c = true

theorem isSafeName_safeName (s : String) : IsSafeName (safeName s) := by
  cases hname : (replaceUnsafe false (trim isBlank s.toList)).dropWhile (· == '.') with
  | nil =>
    have hs : (safeName s).toList = ['_'] := by
      rw [safeName, String.toList_ofList, safeChars, hname]
    refine ⟨by simp [hs], by simp [hs], fun c hc => ?_⟩
    rw [hs, List.mem_singleton] at hc
    rw [hc]
    rfl
  | cons c cs =>
    have hs : (safeName s).toList = c :: cs := by
      rw [safeName, String.toList_ofList, safeChars, hname]
    refine ⟨by simp [hs], ?_, ?_⟩
    · have hfirst := List.head?_dropWhile_not (· == '.') (replaceUnsafe false (trim isBlank s.toList))
      rw [hname] at hfirst
      simpa [hs] using hfirst
    · intro d hd
      rw [hs, ← hname] at hd
      exact isSafeChar_of_mem_replaceUnsafe ((List.dropWhile_sublist _).subset hd)

theorem replaceUnsafe_eq_self {inRun : Bool} (h : ∀ c ∈ cs, isSafeChar c = true) :
    replaceUnsafe inRun cs = cs := by
  induction cs generalizing inRun with
  | nil => rfl
  | cons c cs ih =>
    obtain ⟨hc, hcs⟩ := List.forall_mem_cons.mp h
    rw [replaceUnsafe, if_pos hc, ih hcs]

theorem dropWhile_isBlank_eq_self (h : ∀ c ∈ cs, isSafeChar c = true) :
    cs.dropWhile isBlank = cs := by
  cases cs with
  | nil => rfl
  | cons c cs =>
    rw [List.dropWhile_cons_of_neg]
    rw [isBlank_of_isSafeChar (h c List.mem_cons_self)]
    exact Bool.false_ne_true

theorem trim_isBlank_eq_self (h : ∀ c ∈ cs, isSafeChar c = true) : trim isBlank cs = cs :=
  trim_eq_self (dropWhile_isBlank_eq_self h)
    (dropWhile_isBlank_eq_self fun c hc => h c (List.mem_reverse.mp hc))

/-- A safe name is left as it is. -/
theorem safeName_eq_self (h : IsSafeName s) : safeName s = s := by
  have hdrop : s.toList.dropWhile (· == '.') = s.toList := by
    cases hs : s.toList with
    | nil => rfl
    | cons c cs =>
      rw [List.dropWhile_cons_of_neg]
      intro hc
      exact h.head?_ne (by rw [hs, List.head?_cons, beq_iff_eq.mp hc])
  rw [safeName, safeChars, trim_isBlank_eq_self h.isSafeChar, replaceUnsafe_eq_self h.isSafeChar,
    hdrop]
  split
  case h_1 hnil => exact absurd hnil h.ne_nil
  case h_2 => exact String.ofList_toList

theorem safeName_safeName (s : String) : safeName (safeName s) = safeName s :=
  safeName_eq_self (isSafeName_safeName s)

theorem utf8Len_of_isSafeChar (h : ∀ c ∈ cs, isSafeChar c = true) :
    String.utf8Len cs = cs.length := by
  induction cs with
  | nil => rfl
  | cons c cs ih =>
    obtain ⟨hc, hcs⟩ := List.forall_mem_cons.mp h
    have hone : c.utf8Size = 1 := by
      rw [Char.utf8Size_eq_one_iff, UInt32.le_iff_toNat_le]
      exact (bounds_of_isSafeChar hc).2.trans (by decide)
    rw [String.utf8Len_cons, ih hcs, hone, List.length_cons]

/-- A safe name has as many bytes as characters. -/
theorem utf8ByteSize_of_isSafeName (h : IsSafeName s) : s.utf8ByteSize = s.length := by
  rw [← String.ofList_toList (s := s), String.utf8ByteSize_ofList, utf8Len_of_isSafeChar h.isSafeChar,
    String.length_ofList]

end FrameExport.Text
