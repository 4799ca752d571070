import FrameExport.Proofs.Paint.Usable

/-!
# What a gradient is written as

The list of stops of a paint may hold values of any kind, of which the objects are its stops.
`gradient_eq_ite` tells the two apart: the list decides whether there is a gradient, and its text is
made of the stops.  So a paint whose list holds something but no stop is `Hollow`: its gradient has
no colour in it, and it is written where the colour of the paint should stand.

`WritesGradient` says what a gradient is to be, stop by stop, and `writesGradient_iff_not_hollow` is
the headline: all paints but the hollow ones are written like that.
-/

namespace FrameExport.Paint

variable {paint : Json} {fields : Fields}

/-! ### Stops -/

/-- The values in the list of stops of a paint. -/
def stopValues (paint : Json) : List Json :=
  (paint.fieldsOrEmpty.get "gradientStops").items?.getD []

/-- The stops of a paint. -/
def stops (paint : Json) : List Fields := (stopValues paint).filterMap Json.fields?

/-- A solid paint without an opacity of its own. -/
def solidOf (color : Fields) : Json := .obj [("type", .str "SOLID"), ("color", .obj color)]

/-- How a stop is written: the colour that a solid paint of its colour has, and its position in whole
percent, where no number counts as zero. -/
def StopText (fields : Fields) (text : String) : Prop :=
  ∃ (color : Color) (position : Option Double) (percent : Int),
    Paint.color (solidOf (fields.get "color").fieldsOrEmpty) = .ok color
      ∧ (fields.get "position").toDouble? = .ok position
      ∧ (position.getD .zero * .ofNat 100).halfUp = .ok percent
      ∧ text = color.text ++ " " ++ String.ofList (intDigits percent) ++ "%"

/-- The opacity in a colour is the same if it is given once more as one of the paint. -/
theorem alpha_self (v : Json) : alpha v v = alpha .null v := by
  have hnull : alpha .null v = v.toDouble? >>= fun x => .ok (x.getD .one) := rfl
  rw [hnull, alpha]
  cases hv : v.toDouble? with
  | error e => rfl
  | ok x =>
    cases x with
    | none => rfl
    | some a => rfl

theorem solid_own_alpha (color : Fields) :
    solid color (color.get "a") = Paint.color (solidOf color) := by
  have hcolor : Paint.color (solidOf color) = solid color .null := rfl
  rw [hcolor, solid, solid, alpha_self]

theorem stopText_of_stop {s : GradientStop} (h : stop fields = .ok s) : StopText fields s.text := by
  obtain ⟨color, hcolor, h⟩ := bind_eq_ok_iff.mp h
  obtain ⟨position, hposition, h⟩ := bind_eq_ok_iff.mp h
  obtain ⟨percent, hpercent, h⟩ := bind_eq_ok_iff.mp h
  obtain rfl := Except.ok.inj h
  rw [solid_own_alpha] at hcolor
  exact ⟨color, position, percent, hcolor, hposition, hpercent, rfl⟩

/-! ### Gradients -/

theorem shape?_eq_some_iff {type : Json} {shape : GradientShape} :
    shape? type = some shape ↔ type = .str "GRADIENT_LINEAR" ∧ shape = .linear
      ∨ type = .str "GRADIENT_RADIAL" ∧ shape = .radial := by
  unfold shape?
  constructor
  · intro h
    split_ifs at h with hlinear hradial
    · exact .inl ⟨Json.isText_iff.mp hlinear, (Option.some.inj h).symm⟩
    · exact .inr ⟨Json.isText_iff.mp hradial, (Option.some.inj h).symm⟩
  · rintro (⟨rfl, rfl⟩ | ⟨rfl, rfl⟩)
    · rfl
    · rfl

/-- Whether there is a gradient is up to the list, and what it consists of is up to the stops. -/
theorem gradient_eq_ite (paint : Json) :
    gradient paint = if stopValues paint = [] then .ok none
      else ((stops paint).mapM stop).map fun ss =>
        (shape? (paint.fieldsOrEmpty.get "type")).map (⟨·, ss⟩) := by
  unfold gradient stops stopValues Json.fieldsOrEmpty
  cases paint.fields? with
  | none => rfl
  | some fields =>
    simp only [Option.getD_some]
    cases fields.get "gradientStops" with
    | arr items =>
      cases items with
      | nil => rfl
      | cons first rest => rfl
    | _ => rfl

theorem gradient_eq_some_iff {g : Gradient} :
    gradient paint = .ok (some g) ↔ stopValues paint ≠ []
      ∧ shape? (paint.fieldsOrEmpty.get "type") = some g.shape
      ∧ List.Forall₂ (fun fields s => stop fields = .ok s) (stops paint) g.stops := by
  rw [gradient_eq_ite, ← mapM_eq_ok_iff]
  split_ifs with hvalues
  · simp [hvalues]
  · rw [map_eq_ok_iff, and_iff_right hvalues]
    constructor
    · rintro ⟨ss, hss, hg⟩
      obtain ⟨shape, hshape, rfl⟩ := Option.map_eq_some_iff.mp hg
      exact ⟨hshape, hss⟩
    · rintro ⟨hshape, hss⟩
      exact ⟨g.stops, hss, by rw [hshape]; rfl⟩

/-- A paint of the type of a gradient with a list that holds something but no stop. -/
structure Hollow (paint : Json) : Prop where
  shape : (shape? (paint.fieldsOrEmpty.get "type")).isSome = true
  values : stopValues paint ≠ []
  stops : stops paint = []

instance (paint : Json) : Decidable (Hollow paint) :=
  decidable_of_iff ((shape? (paint.fieldsOrEmpty.get "type")).isSome = true
      ∧ stopValues paint ≠ [] ∧ stops paint = [])
    ⟨fun ⟨hshape, hvalues, hstops⟩ => ⟨hshape, hvalues, hstops⟩,
      fun h => ⟨h.shape, h.values, h.stops⟩⟩

/-- One object among the values of the list is enough. -/
example : ¬ Hollow (.obj [("type", .str "GRADIENT_RADIAL"),
    ("gradientStops", .arr [.null, .obj []])]) := by decide

/-- A paint without stops has no gradient, except where it is hollow. -/
theorem gradient_of_stops_eq_nil (hstops : stops paint = []) (h : ¬ Hollow paint) :
    gradient paint = .ok none := by
  rw [gradient_eq_ite, hstops]
  split_ifs with hvalues
  · rfl
  · have hshape : shape? (paint.fieldsOrEmpty.get "type") = none := by
      by_contra hsome
      exact h ⟨Option.isSome_iff_ne_none.mpr hsome, hvalues, hstops⟩
    rw [hshape]
    rfl

/-- The gradient of a hollow paint has no stops. -/
theorem Hollow.exists_gradient_eq (h : Hollow paint) :
    ∃ shape, gradient paint = .ok (some ⟨shape, []⟩) := by
  obtain ⟨shape, hshape⟩ := Option.isSome_iff_exists.mp h.shape
  refine ⟨shape, gradient_eq_some_iff.mpr ⟨h.values, hshape, ?_⟩⟩
  rw [h.stops]
  exact .nil

/-- The type of a paint names a gradient of which this is the beginning. -/
def Opens (type : Json) (lead : String) : Prop :=
  type = .str "GRADIENT_LINEAR" ∧ lead = "linear-gradient(90deg, "
    ∨ type = .str "GRADIENT_RADIAL" ∧ lead = "radial-gradient(circle, "

/-- What a gradient is written as: how it begins, and its stops, of which there is one at least.  A
fill without stops has no gradient and shows its colour. -/
structure WritesGradient (paint : Json) : Prop where
  text : ∀ g, gradient paint = .ok (some g) → ∃ lead texts,
    Opens (paint.fieldsOrEmpty.get "type") lead ∧ texts ≠ []
      ∧ List.Forall₂ StopText (stops paint) texts
      ∧ g.text = lead ++ ", ".intercalate texts ++ ")"
  color : stops paint = [] → gradient paint = .ok none
    ∧ Stylesheet.fillDeclaration paint
      = (Paint.color paint).map fun color => ⟨"background-color", color.text⟩

theorem exists_text_eq {g : Gradient} (h : gradient paint = .ok (some g)) : ∃ lead,
    Opens (paint.fieldsOrEmpty.get "type") lead
      ∧ List.Forall₂ StopText (stops paint) (g.stops.map GradientStop.text)
      ∧ g.text = lead ++ ", ".intercalate (g.stops.map GradientStop.text) ++ ")" := by
  obtain ⟨-, hshape, hstops⟩ := gradient_eq_some_iff.mp h
  have htexts : List.Forall₂ StopText (stops paint) (g.stops.map GradientStop.text) :=
    List.forall₂_map_right_iff.mpr (hstops.imp fun _ _ => stopText_of_stop)
  obtain ⟨shape, ss⟩ := g
  rcases shape?_eq_some_iff.mp hshape with ⟨htype, rfl⟩ | ⟨htype, rfl⟩
  · exact ⟨_, .inl ⟨htype, rfl⟩, htexts, rfl⟩
  · exact ⟨_, .inr ⟨htype, rfl⟩, htexts, rfl⟩

theorem fillDeclaration_of_gradient_eq_none (h : gradient paint = .ok none) :
    Stylesheet.fillDeclaration paint
      = (Paint.color paint).map fun color => ⟨"background-color", color.text⟩ := by
  rw [Stylesheet.fillDeclaration, h]
  rfl

/-- A gradient has one text for each stop and at least one, and a paint without stops shows its
colour, exactly if the paint is not hollow. -/
theorem writesGradient_iff_not_hollow (paint : Json) : WritesGradient paint ↔ ¬ Hollow paint := by
  constructor
  · intro h hollow
    obtain ⟨shape, hgradient⟩ := hollow.exists_gradient_eq
    rw [(h.color hollow.stops).1] at hgradient
    cases hgradient
  · intro h
    constructor
    · intro g hg
      obtain ⟨lead, hlead, htexts, htext⟩ := exists_text_eq hg
      refine ⟨lead, _, hlead, ?_, htexts, htext⟩
      intro hnil
      rw [hnil, List.forall₂_nil_right_iff] at htexts
      rw [gradient_of_stops_eq_nil htexts h] at hg
      cases hg
    · intro hstops
      have hnone := gradient_of_stops_eq_nil hstops h
      exact ⟨hnone, fillDeclaration_of_gradient_eq_none hnone⟩

/-- A list with nothing but null in it is taken for a list of stops. -/
theorem not_writesGradient_nullStop :
    gradient (.obj [("type", .str "GRADIENT_LINEAR"), ("gradientStops", .arr [.null])])
        = .ok (some ⟨.linear, []⟩)
      ∧ Gradient.text ⟨.linear, []⟩ = "linear-gradient(90deg, )"
      ∧ ¬ WritesGradient
        (.obj [("type", .str "GRADIENT_LINEAR"), ("gradientStops", .arr [.null])]) := by
  refine ⟨rfl, by decide +kernel, fun h => ?_⟩
  have hnone := (h.color rfl).1
  cases hnone

end FrameExport.Paint
