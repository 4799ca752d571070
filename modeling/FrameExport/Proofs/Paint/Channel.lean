import FrameExport.Proofs.Decimal.Digits
import FrameExport.Proofs.Double.HalfUp
import FrameExport.Proofs.Json.Canonical
import FrameExport.Proofs.Paint.Usable

/-!
# The channels of a colour

A channel is written as an integer out of 255, and nothing keeps it between 0 and 255: a share below
zero or above one gives an integer of its own.  `FitsByte` says which shares stay within, a little
beyond zero and one on either side, and `text_color_iff` is the headline: the text of a solid paint
has three bytes as channels exactly if its three shares fit.

A greater share does not give a smaller channel (`channelOfUnits_mono`), so it is enough to look
at the last shares on either side that fit and at their neighbours, which do not
(`channelOfUnits_at_bounds`).
-/

namespace FrameExport.Paint

open Double

variable {k r : Nat} {negative : Bool} {v : Json} {c : Int}

/-! ### Channels as integers -/

/-- The values of a byte. -/
def IsByte (c : Int) : Prop := 0 ≤ c ∧ c ≤ 255

instance (c : Int) : Decidable (IsByte c) := inferInstanceAs (Decidable (_ ∧ _))

/-- The channel of a share of `n` units, of which `2 ^ (k + 1)` make one. -/
def channelOfUnits (k : Nat) (n : Int) : Int :=
  roundSignedUnits (roundSignedUnits (255 * n) + (Nat.pow 2 k : Nat)) / (Nat.pow 2 (k + 1) : Nat)

/-- A greater share does not give a smaller channel. -/
theorem channelOfUnits_mono {m n : Int} (h : m ≤ n) : channelOfUnits k m ≤ channelOfUnits k n := by
  have hone : 0 < ((Nat.pow 2 (k + 1) : Nat) : Int) := Int.natCast_pos.mpr (two_pow_pos (k + 1))
  have hproduct : roundSignedUnits (255 * m) ≤ roundSignedUnits (255 * n) :=
    roundSignedUnits_mono (by omega)
  apply Int.ediv_le_ediv hone
  apply roundSignedUnits_mono
  omega

/-! ### The shares that fit -/

/-- The shares whose channel is a byte: up to half a step below zero, and not quite as far above
one. -/
def FitsByte (q : ℚ) : Prop := -(1 / 510) ≤ q ∧ q ≤ 511 / 510 - 1 / 2 ^ 52

/-- The rank of the last share below zero that fits. -/
def lastBelow : Nat := 1013 * binade + 4521260802379792

/-- The rank of the last share above zero that fits. -/
def lastAbove : Nat := 1022 * binade + 4512430214875143

/-- An interval of numbers of units that ends at rank `a` below zero and at rank `b` above it has just
the doubles up to these ranks in it. -/
theorem signedUnits_iff {P : Int → Prop} {a b : Nat}
    (hP : ∀ {l m n : Int}, P l → P n → l ≤ m → m ≤ n → P m)
    (ha : P (signedUnits true a)) (ha' : ¬ P (signedUnits true (a + 1)))
    (hb : P (signedUnits false b)) (hb' : ¬ P (signedUnits false (b + 1))) (negative : Bool) (r : Nat) :
    P (signedUnits negative r) ↔ if negative then r ≤ a else r ≤ b := by
  have hunits : ∀ {m n : Nat}, m ≤ n → unitsOfRank m ≤ unitsOfRank n :=
    fun h => strictMono_unitsOfRank.monotone h
  simp only [signedUnits, if_true, Bool.false_eq_true, if_false] at ha ha' hb hb'
  cases negative with
  | false =>
    simp only [signedUnits, Bool.false_eq_true, if_false]
    constructor
    · intro h
      by_contra hlt
      have hnext := hunits (show b + 1 ≤ r by omega)
      have hlast := hunits (show b ≤ b + 1 by omega)
      exact hb' (hP hb h (by omega) (by omega))
    · intro hr
      have hlast := hunits hr
      exact hP ha hb (by omega) (by omega)
  | true =>
    simp only [signedUnits, if_true]
    constructor
    · intro h
      by_contra hlt
      have hnext := hunits (show a + 1 ≤ r by omega)
      have hlast := hunits (show a ≤ a + 1 by omega)
      exact ha' (hP h ha (by omega) (by omega))
    · intro hr
      have hlast := hunits hr
      exact hP ha hb (by omega) (by omega)

/-- The value of a double of given significand and scale. -/
theorem signedUnits_div_one {d e m : Nat} (hd : e + d = k + 1) (hnormal : binade ≤ m)
    (hm : m ≤ 2 * binade) :
    (signedUnits negative (e * binade + m) : ℚ) / (Nat.pow 2 (k + 1) : Nat)
      = (if negative then -(m : ℚ) else m) / 2 ^ d := by
  have hpow : Nat.pow 2 (e + d) = Nat.pow 2 e * Nat.pow 2 d := Nat.pow_add 2 e d
  have hcast : ((Nat.pow 2 d : Nat) : ℚ) = 2 ^ d := Nat.cast_pow 2 d
  have hpos : ((Nat.pow 2 e : Nat) : ℚ) ≠ 0 := Nat.cast_ne_zero.mpr (two_pow_pos e).ne'
  rw [signedUnits, unitsOfRank_add hm (Or.inr hnormal), ← hd, hpow, ← hcast]
  -- the powers are hidden so that nothing computes them
  generalize Nat.pow 2 e = step at hpos
  generalize Nat.pow 2 d = steps
  cases negative with
  | false =>
    simp only [Bool.false_eq_true, if_false]
    push_cast
    rw [mul_comm (m : ℚ), mul_div_mul_left _ _ hpos]
  | true =>
    simp only [if_true]
    push_cast
    rw [← neg_mul, mul_comm (-(m : ℚ)), mul_div_mul_left _ _ hpos]

/-- The shares that fit are an interval. -/
theorem FitsByte.between {d : Nat} {l m n : Int} (hl : FitsByte ((l : ℚ) / d))
    (hn : FitsByte ((n : ℚ) / d)) (hlm : l ≤ m) (hmn : m ≤ n) : FitsByte ((m : ℚ) / d) := by
  have hd : (0 : ℚ) ≤ d := Nat.cast_nonneg d
  constructor
  · apply hl.1.trans
    exact div_le_div_of_nonneg_right (Int.cast_le.mpr hlm) hd
  · apply le_trans _ hn.2
    exact div_le_div_of_nonneg_right (Int.cast_le.mpr hmn) hd

theorem fitsByte_iff (hk : k + 1 = 1074) (negative : Bool) (r : Nat) :
    FitsByte ((signedUnits negative r : ℚ) / (Nat.pow 2 (k + 1) : Nat))
      ↔ if negative then r ≤ lastBelow else r ≤ lastAbove := by
  have hB := binade_eq
  have hd : 1013 + 61 = k + 1 ∧ 1022 + 52 = k + 1 := by omega
  have hbetween : ∀ {l m n : Int}, FitsByte ((l : ℚ) / (Nat.pow 2 (k + 1) : Nat)) →
      FitsByte ((n : ℚ) / (Nat.pow 2 (k + 1) : Nat)) → l ≤ m → m ≤ n →
        FitsByte ((m : ℚ) / (Nat.pow 2 (k + 1) : Nat)) := fun hl hn => hl.between hn
  unfold lastBelow lastAbove
  apply signedUnits_iff hbetween
  · rw [signedUnits_div_one hd.1 (by omega) (by omega), FitsByte]
    norm_num
  · rw [Nat.add_assoc, signedUnits_div_one hd.1 (by omega) (by omega), FitsByte]
    norm_num
  · rw [signedUnits_div_one hd.2 (by omega) (by omega), FitsByte]
    norm_num
  · rw [Nat.add_assoc, signedUnits_div_one hd.2 (by omega) (by omega), FitsByte]
    norm_num

/-- The channels of the last shares that fit, and of the next ones. -/
theorem channelOfUnits_at_bounds (hk : k + 1 = 1074) :
    channelOfUnits k (signedUnits true lastBelow) = 0
      ∧ channelOfUnits k (signedUnits true (lastBelow + 1)) = -1
      ∧ channelOfUnits k (signedUnits false lastAbove) = 255
      ∧ channelOfUnits k (signedUnits false (lastAbove + 1)) = 256 := by
  obtain rfl : k = 1073 := by omega
  decide +kernel

/-- The channel of a double is a byte exactly if the double fits. -/
theorem isByte_channelOfUnits_iff (hk : k + 1 = 1074) (negative : Bool) (r : Nat) :
    IsByte (channelOfUnits k (signedUnits negative r))
      ↔ FitsByte ((signedUnits negative r : ℚ) / (Nat.pow 2 (k + 1) : Nat)) := by
  obtain ⟨hbelow, hbelow', habove, habove'⟩ := channelOfUnits_at_bounds hk
  have hbetween : ∀ {l m n : Int}, IsByte (channelOfUnits k l) → IsByte (channelOfUnits k n) →
      l ≤ m → m ≤ n → IsByte (channelOfUnits k m) := by
    intro l m n hl hn hlm hmn
    exact ⟨hl.1.trans (channelOfUnits_mono hlm), (channelOfUnits_mono hmn).trans hn.2⟩
  rw [fitsByte_iff hk]
  apply signedUnits_iff hbetween
  · rw [hbelow]
    decide
  · rw [hbelow']
    decide
  · rw [habove]
    decide
  · rw [habove']
    decide

/-! ### Shares as they are given -/

/-- The share that a value stands for fits; it counts as zero if it is no number. -/
def ShareFits (v : Json) : Prop :=
  ∃ x q, v.toDouble? = .ok x ∧ (x.getD .zero).rational? = some q ∧ FitsByte q

/-- A share whose product with 255 can be rounded is finite, and this is its channel. -/
theorem eq_channelOfUnits {x : Double} (hk : k + 1 = 1074) (h : (x * .ofNat 255).halfUp = .ok c) :
    ∃ negative r, x = .finite negative r ∧ c = channelOfUnits k (signedUnits negative r) := by
  have hfinite : (x * .ofNat 255).isFinite = true :=
    isFinite_of_isFinite_add (returns_floor_iff.mp ⟨c, h⟩)
  have hx := isFinite_of_isFinite_mul hfinite
  have hwhole : (Double.ofNat 255).units? = some ((255 * unitsPerOne : Nat) : Int) := by
    decide +kernel
  cases x with
  | nan => cases hx
  | infinite s => cases hx
  | finite negative r =>
    refine ⟨negative, r, rfl, ?_⟩
    have hproduct := units?_mul (by decide) rfl hwhole hfinite
    rw [halfUp_of_units? hk hproduct] at h
    exact (Except.ok.inj h).symm

theorem isByte_channel_iff (h : channel v = .ok c) : IsByte c ↔ ShareFits v := by
  obtain ⟨k, hk⟩ : ∃ k, k + 1 = 1074 := ⟨1073, rfl⟩
  obtain ⟨x, hx, h⟩ := bind_eq_ok_iff.mp h
  obtain ⟨negative, r, hr, rfl⟩ := eq_channelOfUnits hk h
  have hvalue : (x.getD .zero).rational?
      = some ((signedUnits negative r : ℚ) / (Nat.pow 2 (k + 1) : Nat)) := by
    rw [hr, ← unitsPerOne_eq hk]
    rfl
  rw [isByte_channelOfUnits_iff hk]
  constructor
  · intro hfits
    exact ⟨x, _, hx, hvalue, hfits⟩
  · rintro ⟨y, q, hy, hq, hfits⟩
    obtain rfl : x = y := Except.ok.inj (hx.symm.trans hy)
    obtain rfl := Option.some.inj (hvalue.symm.trans hq)
    exact hfits

/-! ### The text of a colour -/

/-- The form in which a colour is written. -/
def rgbaText (r g b : Int) (alpha : String) : String :=
  "rgba(" ++ String.ofList (intDigits r) ++ "," ++ String.ofList (intDigits g) ++ ","
    ++ String.ofList (intDigits b) ++ "," ++ alpha ++ ")"

/-- The text of a colour with three bytes as channels. -/
def HasBytes (text : String) : Prop :=
  ∃ r g b alpha, text = rgbaText r g b alpha ∧ IsByte r ∧ IsByte g ∧ IsByte b

/-- An integer ends where the comma after it stands. -/
theorem intDigits_append_inj {m n : Int} {s t : List Char}
    (h : intDigits m ++ ',' :: s = intDigits n ++ ',' :: t) : m = n ∧ s = t := by
  have hword : ∀ {n : Int}, ∀ c ∈ intDigits n, Json.isWordChar c = true := by
    intro n c hc
    rcases mem_intDigits hc with rfl | hdigit
    · decide
    · exact Json.isWordChar_of_isDigit hdigit
  obtain ⟨hdigits, hrest⟩ := Json.word_append_inj hword hword (Json.ends_cons rfl s)
    (Json.ends_cons rfl t) h
  exact ⟨intDigits_injective hdigits, (List.cons.inj hrest).2⟩

theorem toList_rgbaText (r g b : Int) (alpha : String) :
    (rgbaText r g b alpha).toList = "rgba(".toList ++ (intDigits r ++ ',' :: (intDigits g
      ++ ',' :: (intDigits b ++ ',' :: (alpha.toList ++ [')'])))) := by
  simp [rgbaText]

/-- The channels can be read off the text. -/
theorem rgbaText_injective {r g b r' g' b' : Int} {alpha alpha' : String}
    (h : rgbaText r g b alpha = rgbaText r' g' b' alpha') : r = r' ∧ g = g' ∧ b = b' := by
  have hchars := congrArg String.toList h
  rw [toList_rgbaText, toList_rgbaText] at hchars
  obtain ⟨hr, hchars⟩ := intDigits_append_inj (List.append_cancel_left hchars)
  obtain ⟨hg, hchars⟩ := intDigits_append_inj hchars
  obtain ⟨hb, -⟩ := intDigits_append_inj hchars
  exact ⟨hr, hg, hb⟩

theorem hasBytes_rgbaText_iff {r g b : Int} {alpha : String} :
    HasBytes (rgbaText r g b alpha) ↔ IsByte r ∧ IsByte g ∧ IsByte b := by
  constructor
  · rintro ⟨r', g', b', alpha', h, hbytes⟩
    obtain ⟨rfl, rfl, rfl⟩ := rgbaText_injective h
    exact hbytes
  · intro hbytes
    exact ⟨r, g, b, alpha, rfl, hbytes⟩

theorem rgbaText_ne_transparent (r g b : Int) (alpha : String) :
    rgbaText r g b alpha ≠ "transparent" := by
  intro h
  have hchars := congrArg String.toList h
  rw [toList_rgbaText] at hchars
  cases hchars

/-! ### Paints -/

/-- The shares of the three channels of a paint fit. -/
structure SharesFit (paint : Fields) : Prop where
  red : ShareFits ((paint.get "color").fieldsOrEmpty.get "r")
  green : ShareFits ((paint.get "color").fieldsOrEmpty.get "g")
  blue : ShareFits ((paint.get "color").fieldsOrEmpty.get "b")

/-- A solid paint has a colour of three channels. -/
theorem exists_channels {fields : Fields} {color : Color}
    (h : solid (fields.get "color").fieldsOrEmpty (fields.get "opacity") = .ok color) :
    ∃ r g b alpha, color.text = rgbaText r g b alpha
      ∧ (IsByte r ∧ IsByte g ∧ IsByte b ↔ SharesFit fields) := by
  obtain ⟨a, -, h⟩ := bind_eq_ok_iff.mp h
  obtain ⟨r, hr, h⟩ := bind_eq_ok_iff.mp h
  obtain ⟨g, hg, h⟩ := bind_eq_ok_iff.mp h
  obtain ⟨b, hb, h⟩ := bind_eq_ok_iff.mp h
  obtain rfl := Except.ok.inj h
  refine ⟨r, g, b, String.ofList (a.writeFixed 3), rfl, ?_⟩
  rw [isByte_channel_iff hr, isByte_channel_iff hg, isByte_channel_iff hb]
  constructor
  · rintro ⟨hred, hgreen, hblue⟩
    exact ⟨hred, hgreen, hblue⟩
  · rintro ⟨hred, hgreen, hblue⟩
    exact ⟨hred, hgreen, hblue⟩

/-- A paint is an object with these fields and of the solid type. -/
def IsSolidObject (paint : Json) (fields : Fields) : Prop :=
  paint = .obj fields ∧ fields.get "type" = .str "SOLID"

theorem color_of_isSolidObject {paint : Json} {fields : Fields} (h : IsSolidObject paint fields) :
    Paint.color paint = solid (fields.get "color").fieldsOrEmpty (fields.get "opacity") := by
  obtain ⟨rfl, htype⟩ := h
  have hsolid : isSolid fields = true := Json.isText_iff.mpr htype
  rw [Paint.color, Json.fields?]
  exact if_pos hsolid

theorem color_of_not_isSolidObject {paint : Json} (h : ∀ fields, ¬ IsSolidObject paint fields) :
    Paint.color paint = .ok .transparent := by
  cases paint with
  | obj fields =>
    have hsolid : ¬ isSolid fields = true := fun htrue => h fields ⟨rfl, Json.isText_iff.mp htrue⟩
    rw [Paint.color, Json.fields?]
    exact if_neg hsolid
  | _ => rfl

/-- **The channels of a colour.**  A paint is written as transparent exactly if it is no solid one, and
else with three integers as channels.  These are bytes exactly if the shares of the solid paint fit. -/
theorem text_color_iff {paint : Json} {color : Color} (h : Paint.color paint = .ok color) :
    (color.text = "transparent" ↔ ∀ fields, ¬ IsSolidObject paint fields)
      ∧ (color.text = "transparent" ∨ ∃ r g b alpha, color.text = rgbaText r g b alpha)
      ∧ (color.text = "transparent" ∨ HasBytes color.text
        ↔ ∀ fields, IsSolidObject paint fields → SharesFit fields) := by
  by_cases hsolid : ∃ fields, IsSolidObject paint fields
  · obtain ⟨fields, hfields⟩ := hsolid
    rw [color_of_isSolidObject hfields] at h
    obtain ⟨r, g, b, alpha, htext, hbytes⟩ := exists_channels h
    have hvisible : color.text ≠ "transparent" := by
      rw [htext]
      exact rgbaText_ne_transparent r g b alpha
    refine ⟨iff_of_false hvisible fun hnot => hnot fields hfields,
      Or.inr ⟨r, g, b, alpha, htext⟩, ?_⟩
    rw [or_iff_right hvisible, htext, hasBytes_rgbaText_iff, hbytes]
    constructor
    · intro hfit fields' hfields'
      obtain rfl : fields = fields' := Json.obj.inj (hfields.1.symm.trans hfields'.1)
      exact hfit
    · intro hfit
      exact hfit fields hfields
  · have hnone : ∀ fields, ¬ IsSolidObject paint fields := fun fields hfields =>
      hsolid ⟨fields, hfields⟩
    rw [color_of_not_isSolidObject hnone] at h
    obtain rfl := Except.ok.inj h
    have htext : Color.transparent.text = "transparent" := rfl
    exact ⟨iff_of_true htext hnone, Or.inl htext,
      iff_of_true (Or.inl htext) fun fields hfields => absurd hfields (hnone fields)⟩

/-- A solid paint with shares a little beyond zero and one. -/
def slightlyBeyond : Fields := [("type", .str "SOLID"),
  ("color", .obj [("r", .str "1.0019"), ("g", .str "-0.0019"), ("b", .str "none")])]

/-- Shares a little beyond zero and one are still rounded to bytes, so that they fit. -/
theorem sharesFit_slightlyBeyond :
    Paint.color (.obj slightlyBeyond) = .ok (.rgba 255 0 0 .one) ∧ SharesFit slightlyBeyond := by
  have hcolor : Paint.color (.obj slightlyBeyond) = .ok (.rgba 255 0 0 .one) := by decide +kernel
  have hbytes : HasBytes (Color.rgba 255 0 0 .one).text :=
    ⟨255, 0, 0, "1.000", by decide +kernel, by decide, by decide, by decide⟩
  exact ⟨hcolor, (text_color_iff hcolor).2.2.mp (Or.inr hbytes) slightlyBeyond ⟨rfl, rfl⟩⟩

/-- A share of two is no share of a byte: nothing holds the channel down. -/
theorem color_two_not_hasBytes : ∃ color,
    Paint.color (.obj [("type", .str "SOLID"), ("color", .obj [("r", .int 2)])]) = .ok color
      ∧ color.text = "rgba(510,0,0,1.000)"
      ∧ ¬ (color.text = "transparent" ∨ HasBytes color.text) := by
  have htext : (Color.rgba 510 0 0 .one).text = rgbaText 510 0 0 "1.000" := by decide +kernel
  refine ⟨.rgba 510 0 0 .one, by decide +kernel, by decide +kernel, ?_⟩
  rw [htext, hasBytes_rgbaText_iff]
  rintro (h | ⟨hred, -, -⟩)
  · exact rgbaText_ne_transparent 510 0 0 "1.000" h
  · exact absurd hred (by decide)

end FrameExport.Paint
