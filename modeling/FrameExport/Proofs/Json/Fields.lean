import FrameExport.Json.Basic
import Mathlib.Data.List.Nodup

/-!
# Fields with a value put in

`Fields.put` gives a key that is there another value, and puts a new key behind the others.  So the
other keys keep their values (`Fields.get_put`), and the keys stay in order, with a new one at the end
(`Fields.map_fst_put`).  Fields of distinct keys that are put in one by one make up the list of them
(`Fields.foldl_put_eq_append`).
-/

namespace FrameExport.Fields

variable {fs : Fields} {key : String}

/-! ### Values -/

theorem get_cons (key k : String) (v : Json) (fs : Fields) :
    get ((k, v) :: fs) key = if key = k then v else fs.get key := by
  unfold get
  by_cases h : key = k
  · rw [if_pos h, h, List.lookup_cons_self, Option.getD_some]
  · rw [if_neg h, List.lookup_cons, beq_eq_false_iff_ne.mpr h]

theorem get_put (key k : String) (v : Json) (fs : Fields) :
    (put k v fs).get key = if key = k then v else fs.get key := by
  induction fs with
  | nil => exact get_cons key k v []
  | cons f fs ih =>
    obtain ⟨l, w⟩ := f
    by_cases hl : l = k
    · subst hl
      rw [put, if_pos rfl, get_cons, get_cons]
      split <;> rfl
    · rw [put, if_neg hl, get_cons, get_cons, ih]
      by_cases h : key = l
      · subst h
        rw [if_pos rfl, if_pos rfl, if_neg hl]
      · rw [if_neg h, if_neg h]

theorem mem_put {f : String × Json} {v : Json} (hf : f ∈ put key v fs) :
    f = (key, v) ∨ f ∈ fs := by
  induction fs with
  | nil => exact Or.inl (List.mem_singleton.mp hf)
  | cons g fs ih =>
    obtain ⟨k, w⟩ := g
    rw [put] at hf
    split at hf
    · rename_i hk
      rw [hk] at hf
      exact (List.mem_cons.mp hf).imp_right (List.mem_cons_of_mem _)
    · rcases List.mem_cons.mp hf with rfl | hf
      · exact Or.inr List.mem_cons_self
      · exact (ih hf).imp_right (List.mem_cons_of_mem _)

/-! ### Keys -/

theorem put_eq_append (hkey : key ∉ fs.map Prod.fst) (v : Json) :
    put key v fs = fs ++ [(key, v)] := by
  induction fs with
  | nil => rfl
  | cons f fs ih =>
    obtain ⟨k, w⟩ := f
    rw [List.map_cons, List.mem_cons, not_or] at hkey
    rw [put, if_neg (Ne.symm hkey.1), ih hkey.2, List.cons_append]

theorem map_fst_put_of_mem (hkey : key ∈ fs.map Prod.fst) (v : Json) :
    (put key v fs).map Prod.fst = fs.map Prod.fst := by
  induction fs with
  | nil => cases hkey
  | cons f fs ih =>
    obtain ⟨k, w⟩ := f
    rw [put]
    split
    · rfl
    · rename_i hk
      rw [List.map_cons, List.mem_cons] at hkey
      rw [List.map_cons, List.map_cons, ih (hkey.resolve_left (Ne.symm hk))]

/-- A key that is there keeps its place, and a new one comes last. -/
theorem map_fst_put (key : String) (v : Json) (fs : Fields) :
    (put key v fs).map Prod.fst
      = if key ∈ fs.map Prod.fst then fs.map Prod.fst else fs.map Prod.fst ++ [key] := by
  split
  · rename_i hkey
    exact map_fst_put_of_mem hkey v
  · rename_i hkey
    rw [put_eq_append hkey, List.map_append, List.map_singleton]

/-- Distinct keys stay distinct. -/
theorem nodup_put (h : (fs.map Prod.fst).Nodup) (key : String) (v : Json) :
    ((put key v fs).map Prod.fst).Nodup := by
  rw [map_fst_put]
  split
  · exact h
  · rename_i hkey
    rw [← List.concat_eq_append]
    exact h.concat hkey

/-- Fields of distinct keys are put in one behind the other. -/
theorem foldl_put_eq_append (acc : Fields) (hkeys : ((acc ++ fs).map Prod.fst).Nodup) :
    fs.foldl (fun fs f => put f.1 f.2 fs) acc = acc ++ fs := by
  induction fs generalizing acc with
  | nil => rw [List.foldl_nil, List.append_nil]
  | cons f fs ih =>
    have hnew : f.1 ∉ acc.map Prod.fst := by
      rw [List.map_append, List.nodup_append'] at hkeys
      exact fun hmem => hkeys.2.2 hmem (by simp)
    rw [List.foldl_cons, put_eq_append hnew, ih _ (by simpa using hkeys), List.append_assoc,
      List.singleton_append]

end FrameExport.Fields
