import FrameExport.Proofs.Paint.Reordered

/-!
# Values with sorted fields

`Json.sorted` is one value for all that are reordered ones of each other, and it is one of them
(`reordered_sorted`).  So what does not look at the order of fields does the same for a value as for
the sorted one, and then for any two reordered values.  The lemmas here say so for the questions
that are asked of a value: its fields, its kind, and whether it has objects in it.
-/

namespace FrameExport

namespace Json

/-! ### A sorted value is reordered -/

theorem reorderedFields_sortedObject_of {fs : Fields}
    (h : ∀ f ∈ fs, Reordered f.2 f.2.sorted) : ReorderedFields fs (sortedObject fs) := by
  induction fs with
  | nil =>
    rw [sortedObject_nil]
    exact ReorderedFields.refl []
  | cons f fs ih =>
    obtain ⟨k, v⟩ := f
    obtain ⟨hv, hrest⟩ := List.forall_mem_cons.mp h
    rw [sortedObject_cons, ReorderedFields, Fields.eraseP_insertSorted]
    exact ⟨⟨v.sorted, Fields.lookup_insertSorted_self, hv⟩, ih hrest⟩

mutual

theorem reordered_sorted : ∀ v : Json, Reordered v v.sorted
  | .arr vs => reorderedItems_sortedItems vs
  | .obj fs => reorderedFields_sortedObject_of (reordered_sortedFields fs)
  | .null | .bool _ | .int _ | .double _ | .str _ => Reordered.refl _

theorem reorderedItems_sortedItems : ∀ vs : List Json, ReorderedItems vs (sortedItems vs)
  | [] => rfl
  | v :: vs => ⟨reordered_sorted v, reorderedItems_sortedItems vs⟩

theorem reordered_sortedFields : ∀ fs : List (String × Json), ∀ f ∈ fs, Reordered f.2 f.2.sorted
  | [] => fun _ hf => absurd hf List.not_mem_nil
  | (_, v) :: fs => List.forall_mem_cons.mpr ⟨reordered_sorted v, reordered_sortedFields fs⟩

end

theorem reorderedFields_sortedObject (fs : Fields) : ReorderedFields fs (sortedObject fs) :=
  reordered_sorted (.obj fs)

/-! ### Fields and items -/

variable {fs : Fields}

theorem get_sortedObject (fs : Fields) (key : String) :
    Fields.get (sortedObject fs) key = (Fields.get fs key).sorted := by
  unfold Fields.get
  rw [lookup_sortedObject]
  cases fs.lookup key <;> rfl

theorem sortedItems_eq_map (vs : List Json) : sortedItems vs = vs.map sorted := by
  induction vs with
  | nil => rfl
  | cons v vs ih => rw [sortedItems, ih, List.map_cons]

theorem fields?_sorted (v : Json) : v.sorted.fields? = v.fields?.map sortedObject := by
  cases v <;> rfl

theorem fieldsOrEmpty_sorted (v : Json) :
    v.sorted.fieldsOrEmpty = sortedObject v.fieldsOrEmpty := by
  rw [fieldsOrEmpty, fieldsOrEmpty, fields?_sorted]
  cases v.fields? with
  | none => exact sortedObject_nil.symm
  | some fs => rfl

theorem perm_insertSorted (f : String × Json) (fs : Fields) :
    (Fields.insertSorted f fs).Perm (f :: fs) := by
  induction fs with
  | nil => exact List.Perm.refl _
  | cons g fs ih =>
    unfold Fields.insertSorted
    split
    · exact (ih.cons g).trans (List.Perm.swap f g fs)
    · exact List.Perm.refl _

/-- The fields of a sorted object are those of the object with sorted values. -/
theorem perm_sortedObject (fs : Fields) :
    (sortedObject fs).Perm (fs.map fun f => (f.1, f.2.sorted)) := by
  induction fs with
  | nil =>
    rw [sortedObject_nil]
    exact List.Perm.refl _
  | cons f fs ih =>
    obtain ⟨k, v⟩ := f
    rw [sortedObject_cons, List.map_cons]
    exact (perm_insertSorted _ _).trans (ih.cons _)

/-! ### Kinds -/

theorem isTruthy_sorted (v : Json) : v.sorted.isTruthy = v.isTruthy := by
  cases v with
  | arr vs => cases vs <;> rfl
  | obj fs =>
    have hlength := (perm_sortedObject fs).length_eq
    rw [List.length_map] at hlength
    show (!(sortedObject fs).isEmpty) = !fs.isEmpty
    rw [Bool.eq_iff_iff, Bool.not_eq_true', Bool.not_eq_true', List.isEmpty_eq_false_iff,
      List.isEmpty_eq_false_iff, ← List.length_pos_iff, ← List.length_pos_iff, hlength]
  | null | bool | int | double | str => rfl

theorem isText_sorted (v : Json) (text : String) : v.sorted.isText text = v.isText text :=
  ((reordered_sorted v).isText text).symm

theorem isFalse_sorted (v : Json) : v.sorted.isFalse = v.isFalse := by
  cases v <;> rfl

/-! ### Values without objects -/

mutual

theorem objectFree_sorted : ∀ v : Json, v.sorted.objectFree = v.objectFree
  | .arr vs => itemsObjectFree_sortedItems vs
  | .obj _ | .null | .bool _ | .int _ | .double _ | .str _ => rfl

theorem itemsObjectFree_sortedItems :
    ∀ vs : List Json, itemsObjectFree (sortedItems vs) = itemsObjectFree vs
  | [] => rfl
  | v :: vs => by
    rw [sortedItems, itemsObjectFree, itemsObjectFree, objectFree_sorted v,
      itemsObjectFree_sortedItems vs]

end

theorem forall_objectFree_sortedObject_iff :
    (∀ f ∈ sortedObject fs, f.2.objectFree = true) ↔ ∀ f ∈ fs, f.2.objectFree = true := by
  have hperm : (∀ f ∈ sortedObject fs, f.2.objectFree = true)
      ↔ ∀ f ∈ fs.map fun f => (f.1, f.2.sorted), f.2.objectFree = true :=
    forall_congr' fun f => by rw [(perm_sortedObject fs).mem_iff]
  rw [hperm, List.forall_mem_map]
  exact forall_congr' fun f => by rw [objectFree_sorted]

end Json

end FrameExport
