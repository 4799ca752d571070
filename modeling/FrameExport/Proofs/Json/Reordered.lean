import FrameExport.Json.Writer
import Mathlib.Data.List.Nodup
import Mathlib.Data.List.Perm.Basic
import Mathlib.Data.String.Basic

/-!
# Values that differ in the order of fields

`Json.Reordered v w` says that two values are equal up to the order of the fields of the objects in
them, at every level; integers and doubles are different kinds, and the one NaN equals itself.
Fields are matched by key: the first field of one object goes with the first field of its key in the
other, and the rest with the rest.  For objects whose keys are distinct this is a permutation of
fields with reordered values (`reorderedFields_iff_perm`).

`sorted_eq_sorted_iff` says that sorting the fields at every level gives equal values exactly for
reordered ones, which makes `Reordered` an equivalence.  What a reader of values looks at is the same
in both: fields (`ReorderedFields.get`), kinds and scalars.
-/

namespace FrameExport

namespace Json

mutual

/-- Two values that are equal up to the order of the fields of objects at every level. -/
def Reordered : Json → Json → Prop
  | .arr vs, .arr ws => ReorderedItems vs ws
  | .obj fs, .obj gs => ReorderedFields fs gs
  | v, w => v = w

/-- Items that are equal one by one up to the order of fields. -/
def ReorderedItems : List Json → List Json → Prop
  | [], ws => ws = []
  | _ :: _, [] => False
  | v :: vs, w :: ws => Reordered v w ∧ ReorderedItems vs ws

/-- Fields that are equal up to their order and the order of fields in their values. -/
def ReorderedFields : List (String × Json) → List (String × Json) → Prop
  | [], gs => gs = []
  | (k, v) :: fs, gs =>
    (∃ w, gs.lookup k = some w ∧ Reordered v w)
      ∧ ReorderedFields fs (gs.eraseP fun g => g.1 == k)

end

end Json

namespace Fields

variable {f g : String × Json} {fs gs : Fields} {k : String} {v : Json}

/-! ### Inserting a field -/

/-- A field that was inserted is the first one of its key. -/
theorem lookup_insertSorted_self : (insertSorted (k, v) fs).lookup k = some v := by
  induction fs with
  | nil => simp [insertSorted]
  | cons f fs ih =>
    unfold insertSorted
    split
    · rename_i hlt
      have hne : (k == f.1) = false := by
        rw [beq_eq_false_iff_ne]
        rintro rfl
        exact lt_irrefl _ hlt
      rw [List.lookup_cons, hne]
      exact ih
    · simp

theorem lookup_insertSorted_of_ne {key : String} (h : key ≠ f.1) :
    (insertSorted f fs).lookup key = fs.lookup key := by
  have hne : (key == f.1) = false := by simpa using h
  induction fs with
  | nil => simp [insertSorted, h]
  | cons g fs ih =>
    unfold insertSorted
    split
    · rw [List.lookup_cons, List.lookup_cons, ih]
    · rw [List.lookup_cons, hne]

/-- Taking an inserted field out again leaves the fields as they were. -/
theorem eraseP_insertSorted : (insertSorted (k, v) fs).eraseP (fun g => g.1 == k) = fs := by
  induction fs with
  | nil => simp [insertSorted]
  | cons f fs ih =>
    unfold insertSorted
    split
    · rename_i hlt
      have hne : f.1 ≠ k := by
        rintro rfl
        exact lt_irrefl _ hlt
      rw [List.eraseP_cons, ih, beq_eq_false_iff_ne.mpr hne, cond_false]
    · simp

theorem insertSorted_comm (h : f.1 ≠ g.1) :
    insertSorted f (insertSorted g fs) = insertSorted g (insertSorted f fs) := by
  induction fs with
  | nil =>
    rcases lt_or_gt_of_ne h with hlt | hlt <;> simp [insertSorted, hlt, not_lt_of_gt hlt]
  | cons e fs ih =>
    by_cases hf : e.1 < f.1 <;> by_cases hg : e.1 < g.1
    · simp [insertSorted, hf, hg, ih]
    · have hgf : g.1 < f.1 := lt_of_le_of_lt (not_lt.mp hg) hf
      simp [insertSorted, hf, hg, hgf]
    · have hfg : f.1 < g.1 := lt_of_le_of_lt (not_lt.mp hf) hg
      simp [insertSorted, hf, hg, hfg]
    · rcases lt_or_gt_of_ne h with hlt | hlt <;>
        simp [insertSorted, hf, hg, hlt, not_lt_of_gt hlt]

theorem insertSorted_ne_nil : insertSorted f fs ≠ [] := by
  cases fs with
  | nil => simp [insertSorted]
  | cons g fs =>
    unfold insertSorted
    split <;> simp

/-- What is inserted and what it is inserted into can both be read off the result. -/
theorem insertSorted_inj {w : Json} (h : insertSorted (k, v) fs = insertSorted (k, w) gs) :
    v = w ∧ fs = gs := by
  constructor
  -- the inserted value is looked up, and the rest is what is left without it
  · have hlook := congrArg (List.lookup k) h
    rw [lookup_insertSorted_self, lookup_insertSorted_self] at hlook
    exact Option.some.inj hlook
  · have herase := congrArg (List.eraseP fun g => g.1 == k) h
    rwa [eraseP_insertSorted, eraseP_insertSorted] at herase

end Fields

namespace Json

/-! ### Sorting fields at every level -/

/-- The fields of a sorted object. -/
def sortedObject (fs : Fields) : Fields := Fields.sort (sortedFields fs)

theorem sortedObject_cons (k : String) (v : Json) (fs : Fields) :
    sortedObject ((k, v) :: fs) = Fields.insertSorted (k, v.sorted) (sortedObject fs) := by
  simp [sortedObject, sortedFields, Fields.sort]

theorem sortedObject_nil : sortedObject [] = [] := by
  simp [sortedObject, sortedFields, Fields.sort]

/-- A field is found after sorting as before. -/
theorem lookup_sortedObject (key : String) (fs : Fields) :
    (sortedObject fs).lookup key = (fs.lookup key).map sorted := by
  induction fs with
  | nil => simp [sortedObject_nil]
  | cons f fs ih =>
    obtain ⟨k, v⟩ := f
    rw [sortedObject_cons]
    by_cases h : key = k
    · rw [h, Fields.lookup_insertSorted_self, List.lookup_cons_self, Option.map_some]
    · rw [Fields.lookup_insertSorted_of_ne h, ih, List.lookup_cons, beq_eq_false_iff_ne.mpr h]

/-- The first field of a key may be taken out before sorting and inserted again afterwards. -/
theorem insertSorted_sortedObject_eraseP {k : String} {w : Json} {gs : Fields}
    (h : gs.lookup k = some w) :
    Fields.insertSorted (k, w.sorted) (sortedObject (gs.eraseP fun g => g.1 == k))
      = sortedObject gs := by
  induction gs with
  | nil => simp at h
  | cons g gs ih =>
    obtain ⟨l, u⟩ := g
    by_cases hk : k = l
    · subst hk
      rw [List.lookup_cons_self] at h
      obtain rfl := Option.some.inj h
      simp [sortedObject_cons]
    · rw [List.lookup_cons, beq_eq_false_iff_ne.mpr hk] at h
      have hne : (l == k) = false := beq_eq_false_iff_ne.mpr (Ne.symm hk)
      rw [List.eraseP_cons]
      simp only [hne, cond_false]
      rw [sortedObject_cons, Fields.insertSorted_comm hk, ih h, sortedObject_cons]

mutual

/-- Sorting the fields at every level gives equal values exactly for reordered ones. -/
theorem sorted_eq_sorted_iff : ∀ v w : Json, v.sorted = w.sorted ↔ Reordered v w
  | .null, w => by cases w <;> simp [sorted, Reordered]
  | .bool b, w => by cases w <;> simp [sorted, Reordered]
  | .int n, w => by cases w <;> simp [sorted, Reordered]
  | .double x, w => by cases w <;> simp [sorted, Reordered]
  | .str s, w => by cases w <;> simp [sorted, Reordered]
  | .arr vs, w => by
    cases w with
    | arr ws => simpa [sorted, Reordered] using sortedItems_eq_iff vs ws
    | _ => simp [sorted, Reordered]
  | .obj fs, w => by
    cases w with
    | obj gs => simpa [sorted, Reordered, sortedObject] using sortedObject_eq_iff fs gs
    | _ => simp [sorted, Reordered]

theorem sortedItems_eq_iff :
    ∀ vs ws : List Json, sortedItems vs = sortedItems ws ↔ ReorderedItems vs ws
  | [], ws => by cases ws <;> simp [sortedItems, ReorderedItems]
  | v :: vs, ws => by
    cases ws with
    | nil => simp [sortedItems, ReorderedItems]
    | cons w ws =>
      simp only [sortedItems, ReorderedItems, List.cons.injEq]
      rw [sorted_eq_sorted_iff v w, sortedItems_eq_iff vs ws]

theorem sortedObject_eq_iff :
    ∀ fs gs : List (String × Json), sortedObject fs = sortedObject gs ↔ ReorderedFields fs gs
  | [], gs => by
    cases gs with
    | nil => simp [ReorderedFields]
    | cons g gs =>
      simp only [sortedObject_nil, ReorderedFields, reduceCtorEq, iff_false]
      exact fun h => Fields.insertSorted_ne_nil h.symm
  | (k, v) :: fs, gs => by
    simp only [ReorderedFields, sortedObject_cons]
    constructor
    · intro h
      -- the key is found in the other object too; its field is taken out of both
      have hlook := lookup_sortedObject k gs
      rw [← h, Fields.lookup_insertSorted_self] at hlook
      obtain ⟨w, hw, -⟩ := Option.map_eq_some_iff.mp hlook.symm
      rw [← insertSorted_sortedObject_eraseP hw] at h
      obtain ⟨hvw, hrest⟩ := Fields.insertSorted_inj h
      exact ⟨⟨w, hw, (sorted_eq_sorted_iff v w).mp hvw⟩, (sortedObject_eq_iff fs _).mp hrest⟩
    · rintro ⟨⟨w, hw, hvw⟩, hrest⟩
      rw [(sorted_eq_sorted_iff v w).mpr hvw, (sortedObject_eq_iff fs _).mpr hrest,
        insertSorted_sortedObject_eraseP hw]

end

theorem Reordered.refl (v : Json) : Reordered v v := (sorted_eq_sorted_iff v v).mp rfl

theorem Reordered.symm {v w : Json} (h : Reordered v w) : Reordered w v :=
  (sorted_eq_sorted_iff w v).mp ((sorted_eq_sorted_iff v w).mpr h).symm

theorem Reordered.trans {u v w : Json} (h : Reordered u v) (h' : Reordered v w) : Reordered u w :=
  (sorted_eq_sorted_iff u w).mp
    (((sorted_eq_sorted_iff u v).mpr h).trans ((sorted_eq_sorted_iff v w).mpr h'))

/-! ### Permutations of fields -/

theorem perm_cons_eraseP {k : String} {w : Json} {gs : Fields} (h : gs.lookup k = some w) :
    ((k, w) :: gs.eraseP fun g => g.1 == k).Perm gs := by
  induction gs with
  | nil => simp at h
  | cons g gs ih =>
    obtain ⟨l, u⟩ := g
    by_cases hk : k = l
    · subst hk
      rw [List.lookup_cons_self] at h
      obtain rfl := Option.some.inj h
      simp
    · rw [List.lookup_cons, beq_eq_false_iff_ne.mpr hk] at h
      rw [List.eraseP_cons, beq_eq_false_iff_ne.mpr (Ne.symm hk), cond_false]
      exact (List.Perm.swap _ _ _).trans ((ih h).cons _)

theorem lookup_of_mem {k : String} {w : Json} {gs : Fields} (hnd : (gs.map Prod.fst).Nodup)
    (h : (k, w) ∈ gs) : gs.lookup k = some w := by
  induction gs with
  | nil => simp at h
  | cons g gs ih =>
    rw [List.map_cons, List.nodup_cons] at hnd
    rcases List.mem_cons.mp h with rfl | hmem
    · exact List.lookup_cons_self
    · have hne : k ≠ g.1 := by
        rintro rfl
        exact hnd.1 (List.mem_map.mpr ⟨_, hmem, rfl⟩)
      rw [List.lookup_cons, beq_eq_false_iff_ne.mpr hne]
      exact ih hnd.2 hmem

theorem map_fst_eq_of_forall₂ {fs hs : Fields}
    (h : List.Forall₂ (fun f h => f.1 = h.1 ∧ Reordered f.2 h.2) fs hs) :
    fs.map Prod.fst = hs.map Prod.fst := by
  induction h with
  | nil => rfl
  | cons hhead _ ih => rw [List.map_cons, List.map_cons, hhead.1, ih]

/-- For distinct keys, reordering is a permutation of the fields once each value is reordered. -/
theorem reorderedFields_iff_perm {fs gs : Fields} (hnd : (fs.map Prod.fst).Nodup) :
    ReorderedFields fs gs ↔
      ∃ hs, List.Forall₂ (fun f h => f.1 = h.1 ∧ Reordered f.2 h.2) fs hs ∧ hs.Perm gs := by
  induction fs generalizing gs with
  | nil =>
    constructor
    · rintro rfl
      exact ⟨[], List.Forall₂.nil, List.Perm.refl _⟩
    · rintro ⟨hs, hall, hperm⟩
      cases hall
      exact List.nil_perm.mp hperm
  | cons f fs ih =>
    obtain ⟨k, v⟩ := f
    rw [List.map_cons, List.nodup_cons] at hnd
    simp only [ReorderedFields]
    constructor
    · rintro ⟨⟨w, hw, hvw⟩, hrest⟩
      obtain ⟨hs, hall, hperm⟩ := (ih hnd.2).mp hrest
      exact ⟨(k, w) :: hs, List.Forall₂.cons ⟨rfl, hvw⟩ hall,
        (hperm.cons _).trans (perm_cons_eraseP hw)⟩
    · rintro ⟨hs, hall, hperm⟩
      cases hall with
      | @cons _ h _ hs hhead htail =>
        obtain ⟨l, w⟩ := h
        obtain ⟨rfl, hvw⟩ : k = l ∧ Reordered v w := hhead
        -- the keys of the other object are the same, hence distinct too
        have hnd' : (gs.map Prod.fst).Nodup := by
          rw [← (hperm.map Prod.fst).nodup_iff, List.map_cons, ← map_fst_eq_of_forall₂ htail]
          exact List.nodup_cons.mpr hnd
        have hw := lookup_of_mem hnd' (hperm.subset List.mem_cons_self)
        refine ⟨⟨w, hw, hvw⟩, (ih hnd.2).mpr ⟨hs, htail, ?_⟩⟩
        exact (List.perm_cons _).mp (hperm.trans (perm_cons_eraseP hw).symm)

/-! ### What a reader looks at -/

theorem lookup_eraseP_of_ne {key k : String} (h : key ≠ k) (gs : Fields) :
    (gs.eraseP fun g => g.1 == k).lookup key = gs.lookup key := by
  induction gs with
  | nil => rfl
  | cons g gs ih =>
    obtain ⟨l, u⟩ := g
    rw [List.eraseP_cons]
    by_cases hl : l = k
    · subst hl
      rw [beq_self_eq_true, cond_true, List.lookup_cons, beq_eq_false_iff_ne.mpr h]
    · rw [beq_eq_false_iff_ne.mpr hl, cond_false, List.lookup_cons, List.lookup_cons, ih]

theorem ReorderedFields.lookup {fs gs : Fields} (h : ReorderedFields fs gs) (key : String) :
    (fs.lookup key = none ∧ gs.lookup key = none) ∨
      ∃ v w, fs.lookup key = some v ∧ gs.lookup key = some w ∧ Reordered v w := by
  induction fs generalizing gs with
  | nil =>
    obtain rfl : gs = [] := h
    exact Or.inl ⟨rfl, rfl⟩
  | cons f fs ih =>
    obtain ⟨k, v⟩ := f
    simp only [ReorderedFields] at h
    obtain ⟨⟨w, hw, hvw⟩, hrest⟩ := h
    by_cases hk : key = k
    · subst hk
      exact Or.inr ⟨v, w, List.lookup_cons_self, hw, hvw⟩
    · rw [List.lookup_cons, beq_eq_false_iff_ne.mpr hk]
      rw [← lookup_eraseP_of_ne hk gs]
      exact ih hrest

/-- A field has reordered values in reordered objects. -/
theorem ReorderedFields.get {fs gs : Fields} (h : ReorderedFields fs gs) (key : String) :
    Reordered (Fields.get fs key) (Fields.get gs key) := by
  unfold Fields.get
  rcases h.lookup key with ⟨hf, hg⟩ | ⟨v, w, hf, hg, hvw⟩
  · rw [hf, hg]
    exact Reordered.refl _
  · rw [hf, hg]
    exact hvw

/-- Reordered values are two arrays, two objects, or one value. -/
theorem Reordered.cases {v w : Json} (h : Reordered v w) :
    (∃ vs ws, v = .arr vs ∧ w = .arr ws ∧ ReorderedItems vs ws) ∨
      (∃ fs gs, v = .obj fs ∧ w = .obj gs ∧ ReorderedFields fs gs) ∨ v = w := by
  cases v with
  | arr vs =>
    cases w with
    | arr ws => exact Or.inl ⟨vs, ws, rfl, rfl, by simpa [Reordered] using h⟩
    | _ => simp [Reordered] at h
  | obj fs =>
    cases w with
    | obj gs => exact Or.inr (Or.inl ⟨fs, gs, rfl, rfl, by simpa [Reordered] using h⟩)
    | _ => simp [Reordered] at h
  | _ => exact Or.inr (Or.inr (by simpa [Reordered] using h))

theorem ReorderedFields.refl (fs : Fields) : ReorderedFields fs fs := by
  simpa [Reordered] using Reordered.refl (.obj fs)

theorem Reordered.isText {v w : Json} (h : Reordered v w) (text : String) :
    v.isText text = w.isText text := by
  rcases h.cases with ⟨vs, ws, rfl, rfl, -⟩ | ⟨fs, gs, rfl, rfl, -⟩ | rfl <;> rfl

/-- Reordered values are both objects, or neither is. -/
theorem Reordered.fields? {v w : Json} (h : Reordered v w) :
    (v.fields? = none ∧ w.fields? = none) ∨
      ∃ fs gs, v.fields? = some fs ∧ w.fields? = some gs ∧ ReorderedFields fs gs := by
  rcases h.cases with ⟨vs, ws, rfl, rfl, -⟩ | ⟨fs, gs, rfl, rfl, hfg⟩ | rfl
  · exact Or.inl ⟨rfl, rfl⟩
  · exact Or.inr ⟨fs, gs, rfl, rfl, hfg⟩
  · cases hv : v.fields? with
    | none => exact Or.inl ⟨rfl, rfl⟩
    | some fs => exact Or.inr ⟨fs, fs, rfl, rfl, ReorderedFields.refl fs⟩

theorem Reordered.fieldsOrEmpty {v w : Json} (h : Reordered v w) :
    ReorderedFields v.fieldsOrEmpty w.fieldsOrEmpty := by
  unfold Json.fieldsOrEmpty
  rcases h.fields? with ⟨hv, hw⟩ | ⟨fs, gs, hv, hw, hfg⟩
  · rw [hv, hw]
    exact ReorderedFields.refl _
  · rw [hv, hw]
    exact hfg

/-- The objects among reordered items are reordered one by one. -/
theorem ReorderedItems.objects {vs ws : List Json} (h : ReorderedItems vs ws) :
    List.Forall₂ ReorderedFields (vs.filterMap Json.fields?) (ws.filterMap Json.fields?) := by
  induction vs generalizing ws with
  | nil =>
    obtain rfl : ws = [] := h
    exact List.Forall₂.nil
  | cons v vs ih =>
    cases ws with
    | nil => exact absurd h (by simp [ReorderedItems])
    | cons w ws =>
      obtain ⟨hvw, hrest⟩ : Reordered v w ∧ ReorderedItems vs ws := h
      rcases hvw.fields? with ⟨hv, hw⟩ | ⟨fs, gs, hv, hw, hfg⟩
      · rw [List.filterMap_cons_none hv, List.filterMap_cons_none hw]
        exact ih hrest
      · rw [List.filterMap_cons_some hv, List.filterMap_cons_some hw]
        exact List.Forall₂.cons hfg (ih hrest)

end Json

end FrameExport
