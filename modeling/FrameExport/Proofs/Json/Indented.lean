import FrameExport.Proofs.Json.ReadBack

/-!
# Values over several lines read back

What is written of a readable value over several lines reads back as the value itself
(`read_pretty`).  The members of an array or object begin on lines of their own, so their text is the
start of a line and then a text that reads as the members, with the start of the line of the closing
mark behind it.
-/

namespace FrameExport.Json

theorem blank_lineStart (level : Nat) : Blank (lineStart level) := by
  intro c hc
  rcases List.mem_cons.mp hc with rfl | hc
  · rfl
  · rw [List.eq_of_mem_replicate hc]
    rfl

theorem blank_space : Blank [' '] := by
  intro c hc
  rw [List.mem_singleton.mp hc]
  rfl

mutual

/-- A readable value over several lines is read as it was written, at every level of nesting. -/
theorem readsAs_indented :
    ∀ {v : Json} (level : Nat), v.isReadable = true → ReadsAs (v.indented level) v
  | .null, _ => fun _ => readsAs_word (c := 'n') (by decide) (by decide) fun _ _ => rfl
  | .bool true, _ => fun _ => readsAs_word (c := 't') (by decide) (by decide) fun _ _ => rfl
  | .bool false, _ => fun _ => readsAs_word (c := 'f') (by decide) (by decide) fun _ _ => rfl
  | .int _, _ => fun h => readsAs_intDigits (of_decide_eq_true h)
  | .double x, _ => fun _ => readsAs_write x
  | .str s, _ => fun _ => readsAs_quoted s
  | .arr [], _ => fun _ => readsAs_arr_nil blank_nil
  | .arr (v :: vs), level => fun h => by
    obtain ⟨t, ht, hread⟩ := readsItems_indentedItems (level + 1) h (List.cons_ne_nil v vs)
      (blank_lineStart level)
    have harr := hread.arr (blank_lineStart (level + 1))
    rw [indented, ht]
    simpa using harr
  | .obj [], _ => fun _ => readsAs_obj_nil blank_nil
  | .obj (f :: fs), level => fun h => by
    rw [isReadable, Bool.and_eq_true, decide_eq_true_eq] at h
    obtain ⟨t, ht, hread⟩ := readsFields_indentedFields (level + 1) h.2 (List.cons_ne_nil f fs)
      (blank_lineStart level)
    have hobj := hread.obj h.1 (blank_lineStart (level + 1))
    rw [indented, ht]
    simpa using hobj

theorem readsItems_indentedItems :
    ∀ {vs : List Json} (level : Nat), itemsReadable vs = true → vs ≠ [] →
      ∀ {ws : List Char}, Blank ws →
        ∃ t, indentedItems level vs = lineStart level ++ t ∧ ReadsItems (t ++ ws) vs
  | [], _ => fun _ hne => absurd rfl hne
  | [v], level => fun h _ ws hws => by
    rw [itemsReadable, Bool.and_eq_true] at h
    exact ⟨v.indented level, rfl, ReadsItems.single (readsAs_indented level h.1) hws⟩
  | v :: w :: vs, level => fun h _ ws hws => by
    rw [itemsReadable, Bool.and_eq_true] at h
    obtain ⟨ts, hts, hrest⟩ := readsItems_indentedItems level h.2 (List.cons_ne_nil w vs) hws
    have hread := hrest.cons (readsAs_indented level h.1) (blank_lineStart level)
    refine ⟨v.indented level ++ ',' :: (lineStart level ++ ts), ?_, ?_⟩
    · rw [indentedItems, hts]
    · simpa using hread

theorem readsFields_indentedFields :
    ∀ {fs : List (String × Json)} (level : Nat), fieldsReadable fs = true → fs ≠ [] →
      ∀ {ws : List Char}, Blank ws →
        ∃ t, indentedFields level fs = lineStart level ++ t ∧ ReadsFields (t ++ ws) fs
  | [], _ => fun _ hne => absurd rfl hne
  | [(k, v)], level => fun h _ ws hws => by
    rw [fieldsReadable, Bool.and_eq_true] at h
    have hread := ReadsFields.single k (readsAs_indented level h.1) blank_space hws
    refine ⟨quoted k ++ ':' :: ' ' :: v.indented level, rfl, ?_⟩
    simpa using hread
  | (k, v) :: f :: fs, level => fun h _ ws hws => by
    rw [fieldsReadable, Bool.and_eq_true] at h
    obtain ⟨ts, hts, hrest⟩ := readsFields_indentedFields level h.2 (List.cons_ne_nil f fs) hws
    have hread := hrest.cons k (readsAs_indented level h.1) blank_space (blank_lineStart level)
    refine ⟨quoted k ++ ':' :: ' ' :: (v.indented level ++ ',' :: (lineStart level ++ ts)), ?_, ?_⟩
    · rw [indentedFields, hts]
    · simpa using hread

end

/-- What is written of a readable value over several lines reads back as the value. -/
theorem read_pretty {v : Json} (hv : v.isReadable = true) : Json.read v.pretty = .ok v :=
  (readsAs_indented 0 hv).read

end FrameExport.Json
