import FrameExport.Proofs.Fallible
import FrameExport.Stylesheet.Basic

/-!
# Paints that can be used

Nobody checks the values in a paint before a style sheet is made of it.  `ShareUsable` says when a
share of a whole can be rounded to an integer, and `AlphaUsable` when a value can stand for an
opacity; `SolidUsable` and `StopUsable` say what has to be usable in a solid paint and in a stop of a
gradient.

These are exactly the conditions under which a fill and a stroke can be written
(`returns_fillDeclaration_iff`, `returns_strokeDeclaration_iff`).  A fill has its stops read whatever
its type is, and the opacity in its colour only when it has none itself.
-/

namespace FrameExport

theorem Double.returns_floor_iff {x : Double} : Returns x.floor ↔ x.isFinite = true := by
  cases x with
  | nan => exact iff_of_false (not_returns_error _) Bool.false_ne_true
  | infinite s => exact iff_of_false (not_returns_error _) Bool.false_ne_true
  | finite s r => exact iff_of_true (returns_ok _) rfl

theorem Json.isText_iff {v : Json} {text : String} : v.isText text = true ↔ v = .str text := by
  cases v with
  | str s => simp [isText]
  | _ => simp [isText]

namespace Paint

variable {v : Json} {paint : Fields}

/-! ### Usable values -/

/-- A share can be scaled to `whole` and rounded: it is no integer beyond every double, and what
it comes to, with one half added for rounding, is finite.  No number counts as zero. -/
def ShareUsable (whole : Nat) (v : Json) : Prop :=
  ∃ x, v.toDouble? = .ok x ∧ (x.getD .zero * .ofNat whole + .half).isFinite = true

/-- A value can stand for an opacity: it is no integer beyond every double. -/
def AlphaUsable (v : Json) : Prop := ∀ n, v = .int n → (Double.ofInt? n).isSome = true

/-- Whether an integer is a double cannot be found out by computing with its digits left open, so
the two cases are told apart behind a variable. -/
theorem doubleOfInt_eq :
    Json.doubleOfInt = fun n => (Double.ofInt? n).elim (.error .tooLarge) .ok := by
  delta Json.doubleOfInt
  refine funext fun n => ?_
  generalize Double.ofInt? n = x
  cases x with
  | none => rfl
  | some a => rfl

theorem returns_doubleOfInt_iff {n : Int} :
    Returns (Json.doubleOfInt n) ↔ (Double.ofInt? n).isSome = true := by
  rw [doubleOfInt_eq]
  beta_reduce
  generalize Double.ofInt? n = x
  cases x with
  | none => simp
  | some a => simp

theorem returns_toDouble?_iff : Returns v.toDouble? ↔ AlphaUsable v := by
  unfold AlphaUsable
  cases v with
  | int n =>
    rw [Json.toDouble?, returns_map_iff, returns_doubleOfInt_iff]
    constructor
    · rintro h _ ⟨⟩
      exact h
    · intro h
      exact h n rfl
  | _ => simp [Json.toDouble?]

/-- A share that can be scaled and rounded gives an integer, and any other gives none. -/
theorem returns_scaled_iff {whole : Nat} :
    Returns (v.toDouble? >>= fun x => (x.getD .zero * .ofNat whole).halfUp)
      ↔ ShareUsable whole v := by
  rw [returns_bind_iff]
  unfold Double.halfUp
  exact exists_congr fun x => and_congr_right' Double.returns_floor_iff

theorem returns_channel_iff : Returns (channel v) ↔ ShareUsable 255 v := returns_scaled_iff

theorem returns_alpha_iff {own inColor : Json} :
    Returns (alpha own inColor)
      ↔ AlphaUsable own ∧ (own.toDouble? = .ok none → AlphaUsable inColor) := by
  rw [← returns_toDouble?_iff, ← returns_toDouble?_iff, alpha, returns_bind_iff]
  constructor
  · rintro ⟨x, hx, h⟩
    refine ⟨⟨x, hx⟩, fun hnone => ?_⟩
    obtain rfl : x = none := Except.ok.inj (hx.symm.trans hnone)
    exact (returns_bind_of_returns fun _ => returns_pure _).mp h
  · rintro ⟨⟨x, hx⟩, h⟩
    refine ⟨x, hx, ?_⟩
    -- the opacity in the colour is read only where there is no other
    cases x with
    | some a => exact returns_pure a
    | none => exact (returns_bind_of_returns fun _ => returns_pure _).mpr (h hx)

/-! ### Usable paints -/

/-- The three channels of a colour can be used. -/
structure ChannelsUsable (color : Fields) : Prop where
  red : ShareUsable 255 (color.get "r")
  green : ShareUsable 255 (color.get "g")
  blue : ShareUsable 255 (color.get "b")

/-- A solid paint can be used.  The opacity in its colour only counts when it has none itself. -/
structure SolidUsable (paint : Fields) : Prop where
  channels : ChannelsUsable (paint.get "color").fieldsOrEmpty
  opacity : AlphaUsable (paint.get "opacity")
  alpha : (paint.get "opacity").toDouble? = .ok none →
    AlphaUsable ((paint.get "color").fieldsOrEmpty.get "a")

/-- A stop of a gradient can be used. -/
structure StopUsable (stop : Fields) : Prop where
  channels : ChannelsUsable (stop.get "color").fieldsOrEmpty
  alpha : AlphaUsable ((stop.get "color").fieldsOrEmpty.get "a")
  position : ShareUsable 100 (stop.get "position")

/-- Every stop in the list of stops of a paint, if it has one, can be used. -/
def StopsUsable (paint : Fields) : Prop :=
  ∀ items, paint.get "gradientStops" = .arr items →
    ∀ stop, .obj stop ∈ items → StopUsable stop

theorem returns_solid_iff {color : Fields} {opacity : Json} :
    Returns (solid color opacity) ↔ ChannelsUsable color ∧ AlphaUsable opacity
      ∧ (opacity.toDouble? = .ok none → AlphaUsable (color.get "a")) := by
  rw [solid, returns_bind_iff, ← returns_alpha_iff]
  constructor
  · rintro ⟨a, ha, h⟩
    obtain ⟨r, hr, h⟩ := returns_bind_iff.mp h
    obtain ⟨g, hg, h⟩ := returns_bind_iff.mp h
    obtain ⟨b, hb, -⟩ := returns_bind_iff.mp h
    exact ⟨⟨returns_channel_iff.mp ⟨r, hr⟩, returns_channel_iff.mp ⟨g, hg⟩,
      returns_channel_iff.mp ⟨b, hb⟩⟩, a, ha⟩
  · rintro ⟨hchannels, a, ha⟩
    obtain ⟨r, hr⟩ := returns_channel_iff.mpr hchannels.red
    obtain ⟨g, hg⟩ := returns_channel_iff.mpr hchannels.green
    obtain ⟨b, hb⟩ := returns_channel_iff.mpr hchannels.blue
    exact ⟨a, ha, returns_bind_iff.mpr ⟨r, hr, returns_bind_iff.mpr ⟨g, hg,
      returns_bind_iff.mpr ⟨b, hb, returns_pure _⟩⟩⟩⟩

/-- Only the colour of a solid paint is looked at. -/
theorem returns_color_iff :
    Returns (color (.obj paint)) ↔ (isSolid paint = true → SolidUsable paint) := by
  simp only [color, Json.fields?]
  cases isSolid paint with
  | false => simp
  | true =>
    rw [if_pos rfl, returns_solid_iff]
    constructor
    · rintro ⟨hchannels, hopacity, halpha⟩ _
      exact ⟨hchannels, hopacity, halpha⟩
    · intro h
      obtain ⟨hchannels, hopacity, halpha⟩ := h rfl
      exact ⟨hchannels, hopacity, halpha⟩

theorem returns_stop_iff {fields : Fields} : Returns (stop fields) ↔ StopUsable fields := by
  rw [stop, returns_bind_iff]
  constructor
  · rintro ⟨color, hcolor, h⟩
    obtain ⟨hchannels, halpha, -⟩ := returns_solid_iff.mp ⟨color, hcolor⟩
    obtain ⟨x, hx, h⟩ := returns_bind_iff.mp h
    rw [returns_bind_of_returns fun _ => returns_pure _] at h
    exact ⟨hchannels, halpha, returns_scaled_iff.mp (returns_bind_iff.mpr ⟨x, hx, h⟩)⟩
  · rintro ⟨hchannels, halpha, hposition⟩
    -- a stop has no opacity besides the one in its colour, so both conditions are one
    obtain ⟨color, hcolor⟩ := returns_solid_iff.mpr ⟨hchannels, halpha, fun _ => halpha⟩
    obtain ⟨x, hx, h⟩ := returns_bind_iff.mp (returns_scaled_iff.mpr hposition)
    refine ⟨color, hcolor, returns_bind_iff.mpr ⟨x, hx, ?_⟩⟩
    rwa [returns_bind_of_returns fun _ => returns_pure _]

theorem mem_objects {items : List Json} {fields : Fields} :
    fields ∈ items.filterMap Json.fields? ↔ .obj fields ∈ items := by
  rw [List.mem_filterMap]
  constructor
  · rintro ⟨v, hv, hfields⟩
    cases v with
    | obj fs => rwa [← Option.some.inj hfields]
    | _ => cases hfields
  · intro h
    exact ⟨_, h, rfl⟩

/-- Every stop of a list is read, whatever the type of the paint is. -/
theorem returns_gradient_iff : Returns (gradient (.obj paint)) ↔ StopsUsable paint := by
  unfold StopsUsable
  simp only [gradient, Json.fields?]
  cases hstops : paint.get "gradientStops" with
  | arr items =>
    cases items with
    | nil => simp
    | cons first rest =>
      simp only [returns_bind_of_returns fun _ => returns_pure _]
      rw [returns_mapM_iff]
      constructor
      · intro h items hitems fields hfields
        obtain rfl := Json.arr.inj hitems
        exact returns_stop_iff.mp (h fields (mem_objects.mpr hfields))
      · intro h fields hfields
        exact returns_stop_iff.mpr (h _ rfl fields (mem_objects.mp hfields))
  | _ => simp

/-- A solid paint has no gradient, whatever stops it has. -/
theorem gradient_of_isSolid {g : Option Gradient} (hsolid : isSolid paint = true)
    (h : gradient (.obj paint) = .ok g) : g = none := by
  have hshape : shape? (paint.get "type") = none := by
    rw [Json.isText_iff.mp hsolid]
    rfl
  simp only [gradient, Json.fields?, hshape] at h
  split at h
  · obtain ⟨stops, -, hg⟩ := bind_eq_ok_iff.mp h
    exact (Except.ok.inj hg).symm
  · exact (Except.ok.inj h).symm

end Paint

namespace Stylesheet

open Paint

variable {paint : Fields}

/-- A fill can be written exactly if its stops and, when it is solid, its colour can be used. -/
theorem returns_fillDeclaration_iff :
    Returns (fillDeclaration (.obj paint))
      ↔ StopsUsable paint ∧ (isSolid paint = true → SolidUsable paint) := by
  rw [← returns_gradient_iff, ← returns_color_iff, fillDeclaration, returns_bind_iff]
  constructor
  · rintro ⟨g, hg, h⟩
    refine ⟨⟨g, hg⟩, returns_color_iff.mpr fun hsolid => ?_⟩
    -- the colour of a solid fill is reached, as its stops make no gradient
    obtain rfl := gradient_of_isSolid hsolid hg
    exact returns_color_iff.mp ((returns_bind_of_returns fun _ => returns_pure _).mp h) hsolid
  · rintro ⟨⟨g, hg⟩, hcolor⟩
    refine ⟨g, hg, ?_⟩
    cases g with
    | some gradient => exact returns_pure _
    | none => exact (returns_bind_of_returns fun _ => returns_pure _).mpr hcolor

/-- A stroke can be written exactly if its colour can be used, when it is solid. -/
theorem returns_strokeDeclaration_iff {weight : Json} :
    Returns (strokeDeclaration (.obj paint) weight)
      ↔ (isSolid paint = true → SolidUsable paint) := by
  rw [← returns_color_iff, strokeDeclaration]
  exact returns_bind_of_returns fun _ => returns_pure _

end Stylesheet

end FrameExport
