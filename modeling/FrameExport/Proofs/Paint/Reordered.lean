import FrameExport.Proofs.Fallible
import FrameExport.Proofs.Json.Reordered
import FrameExport.Stylesheet.Basic

/-!
# Paints that differ in the order of fields

A style sheet says the same for reordered paints, whatever they are and whether or not they can be
used: `Stylesheet.fillDeclaration_eq` and `Stylesheet.strokeDeclaration_eq`.  It says the same for
reordered typographies too if no value in them is or contains an object, since an object is shown
with its fields in the order in which they stand (`Typography.declarations_eq`).
-/

namespace FrameExport

open Json (Reordered ReorderedFields ReorderedItems)

namespace Json

variable {v w : Json} {vs ws : List Json} {fs gs : Fields}

theorem Reordered.toDouble? (h : Reordered v w) : v.toDouble? = w.toDouble? := by
  rcases h.cases with ⟨vs, ws, rfl, rfl, -⟩ | ⟨fs, gs, rfl, rfl, -⟩ | rfl <;> rfl

/-! ### Values without objects -/

mutual

/-- Whether a value neither is nor contains an object. -/
def objectFree : Json → Bool
  | .obj _ => false
  | .arr items => itemsObjectFree items
  | _ => true

/-- Whether no item is or contains an object. -/
def itemsObjectFree : List Json → Bool
  | [] => true
  | v :: vs => v.objectFree && itemsObjectFree vs

end

mutual

/-- Only objects can be reordered. -/
theorem Reordered.eq_of_objectFree :
    ∀ {v w : Json}, Reordered v w → v.objectFree = true → v = w
  | .arr vs, w, h, hfree => by
    cases w with
    | arr ws => rw [ReorderedItems.eq_of_objectFree h hfree]
    | _ => simp [Reordered] at h
  | .obj fs, w, _, hfree => by simp [objectFree] at hfree
  | .null, w, h, _ => by simpa [Reordered] using h
  | .bool b, w, h, _ => by simpa [Reordered] using h
  | .int n, w, h, _ => by simpa [Reordered] using h
  | .double x, w, h, _ => by simpa [Reordered] using h
  | .str s, w, h, _ => by simpa [Reordered] using h

theorem ReorderedItems.eq_of_objectFree :
    ∀ {vs ws : List Json}, ReorderedItems vs ws → itemsObjectFree vs = true → vs = ws
  | [], ws, h, _ => Eq.symm h
  | v :: vs, [], h, _ => h.elim
  | v :: vs, w :: ws, h, hfree => by
    simp only [itemsObjectFree, Bool.and_eq_true] at hfree
    rw [Reordered.eq_of_objectFree h.1 hfree.1, ReorderedItems.eq_of_objectFree h.2 hfree.2]

end

/-- The value of a field is that of one of the fields, or null. -/
theorem get_mem (fs : Fields) (key : String) :
    (key, Fields.get fs key) ∈ fs ∨ Fields.get fs key = .null := by
  unfold Fields.get
  induction fs with
  | nil => exact Or.inr rfl
  | cons f fs ih =>
    obtain ⟨k, v⟩ := f
    by_cases hk : key = k
    · subst hk
      rw [List.lookup_cons_self]
      exact Or.inl List.mem_cons_self
    · rw [List.lookup_cons, beq_eq_false_iff_ne.mpr hk]
      exact ih.imp_left (List.mem_cons_of_mem _)

theorem ReorderedFields.get_eq_of_objectFree (h : ReorderedFields fs gs)
    (hfree : ∀ f ∈ fs, f.2.objectFree = true) (key : String) :
    Fields.get fs key = Fields.get gs key := by
  apply (h.get key).eq_of_objectFree
  rcases get_mem fs key with hmem | hnull
  · exact hfree _ hmem
  · rw [hnull]
    rfl

end Json

namespace Paint

variable {p q : Json} {fs gs : Fields}

theorem channel_eq {v w : Json} (h : Reordered v w) : channel v = channel w := by
  rw [channel, channel, h.toDouble?]

theorem alpha_eq {own own' inColor inColor' : Json} (h : Reordered own own')
    (h' : Reordered inColor inColor') : alpha own inColor = alpha own' inColor' := by
  rw [alpha, alpha, h.toDouble?, h'.toDouble?]

theorem solid_eq {v w : Json} (h : ReorderedFields fs gs) (hvw : Reordered v w) :
    solid fs v = solid gs w := by
  rw [solid, solid, alpha_eq hvw (h.get "a"), channel_eq (h.get "r"), channel_eq (h.get "g"),
    channel_eq (h.get "b")]

theorem isSolid_eq (h : ReorderedFields fs gs) : isSolid fs = isSolid gs :=
  (h.get "type").isText "SOLID"

theorem color_eq (h : Reordered p q) : color p = color q := by
  unfold color
  rcases h.fields? with ⟨hp, hq⟩ | ⟨fs, gs, hp, hq, hfg⟩
  · rw [hp, hq]
  · rw [hp, hq]
    simp only
    rw [isSolid_eq hfg, solid_eq (hfg.get "color").fieldsOrEmpty (hfg.get "opacity")]

theorem stop_eq (h : ReorderedFields fs gs) : stop fs = stop gs := by
  have hshade := (h.get "color").fieldsOrEmpty
  rw [stop, stop, solid_eq hshade (hshade.get "a"), (h.get "position").toDouble?]

theorem shape?_eq {v w : Json} (h : Reordered v w) : shape? v = shape? w := by
  rw [shape?, shape?, h.isText, h.isText]

theorem gradient_eq (h : Reordered p q) : gradient p = gradient q := by
  unfold gradient
  rcases h.fields? with ⟨hp, hq⟩ | ⟨fs, gs, hp, hq, hfg⟩
  · rw [hp, hq]
  · rw [hp, hq]
    simp only
    rcases (hfg.get "gradientStops").cases with
      ⟨vs, ws, hv, hw, hitems⟩ | ⟨vs, ws, hv, hw, -⟩ | heq
    · rw [hv, hw, shape?_eq (hfg.get "type")]
      have hstops := mapM_eq_mapM_of_forall₂ hitems.objects fun _ _ => stop_eq
      cases vs <;> cases ws
      · rfl
      · simp [ReorderedItems] at hitems
      · simp [ReorderedItems] at hitems
      · simp only [hstops]
    · rw [hv, hw]
    · rw [heq, shape?_eq (hfg.get "type")]

end Paint

namespace Stylesheet

variable {p q : Json}

/-- Reordered fills are filled in the same way. -/
theorem fillDeclaration_eq (h : Reordered p q) : fillDeclaration p = fillDeclaration q := by
  rw [fillDeclaration, fillDeclaration, Paint.gradient_eq h, Paint.color_eq h]

theorem strokeDeclaration_eq (h : Reordered p q) (weight : Json) :
    strokeDeclaration p weight = strokeDeclaration q weight := by
  rw [strokeDeclaration, strokeDeclaration, Paint.color_eq h]

end Stylesheet

namespace Typography

variable {fs gs : Fields}

/-- Reordered typographies say the same if there are no objects in them. -/
theorem declarations_eq (h : ReorderedFields fs gs) (hfree : ∀ f ∈ fs, f.2.objectFree = true) :
    declarations fs = declarations gs := by
  have hget := h.get_eq_of_objectFree hfree
  simp only [declarations, hget]

end Typography

end FrameExport
