import FrameExport.Proofs.Double.Plain
import FrameExport.Proofs.Page.Boxes
import FrameExport.Proofs.Page.Declarations

/-!
# The numbers in the declarations of a page

Boxes and sections declare place, size, opacity and corners in numbers.  The numbers are read from
the text of a value by splitting it at blanks and leaving out the units (`Declaration.numbers`); what
is read for a box or a section are the numbers of its node as style sheets write them.  So plain
decimals are declared exactly by the nodes whose numbers are finite
(`Node.declarePlain_boxDeclarations_iff`, `Node.declarePlain_sectionDeclarations_iff`).
-/

namespace FrameExport

open Text

/-! ### Reading numbers -/

/-- A word of a value without its unit, which begins with `p` or `%`. -/
def dropUnit (word : List Char) : List Char := word.takeWhile fun c => c != 'p' && c != '%'

namespace Declaration

/-- The words of a value, each without its unit. -/
def numbers (d : Declaration) : List (List Char) := (d.value.toList.splitOn ' ').map dropUnit

/-- The properties of boxes and sections whose values are numbers. -/
def geometryProperties : List String := ["left", "top", "width", "height", "opacity", "border-radius"]

/-- Where declarations set place, size, opacity or corners, they do it in plain decimals. -/
def DeclarePlain (ds : List Declaration) : Prop :=
  ∀ d ∈ ds, d.property ∈ geometryProperties → ∀ cs ∈ d.numbers, IsPlainDecimal cs

theorem declarePlain_append {ds es : List Declaration} :
    DeclarePlain (ds ++ es) ↔ DeclarePlain ds ∧ DeclarePlain es := List.forall_mem_append

theorem declarePlain_cons {d : Declaration} {ds : List Declaration} :
    DeclarePlain (d :: ds) ↔ DeclarePlain [d] ∧ DeclarePlain ds := by
  rw [← List.singleton_append, declarePlain_append]

theorem declarePlain_nil : DeclarePlain [] := fun _ hd => absurd hd List.not_mem_nil

theorem declarePlain_singleton {d : Declaration} (h : d.property ∈ geometryProperties) :
    DeclarePlain [d] ↔ ∀ cs ∈ d.numbers, IsPlainDecimal cs := by
  rw [DeclarePlain, List.forall_mem_singleton]
  exact forall_prop_of_true h

/-- Declarations of other things do not matter. -/
theorem declarePlain_of_notMem {ds : List Declaration}
    (h : ∀ d ∈ ds, d.property ∉ geometryProperties) : DeclarePlain ds :=
  fun d hd hproperty => absurd hproperty (h d hd)

end Declaration

open Declaration (numbers geometryProperties DeclarePlain declarePlain_append declarePlain_cons
  declarePlain_nil declarePlain_singleton declarePlain_of_notMem)

/-- A number and a unit behind it, or none, are one word. -/
theorem dropUnit_writePlain {x : Double} {unit : List Char} (hunit : unit ∈ ["px".toList, []]) :
    dropUnit (x.writePlain ++ unit) = x.writePlain := by
  have hnumber : ∀ c ∈ x.writePlain, (c != 'p' && c != '%') = true := by
    intro c hc
    have hp : c ≠ 'p' := by
      rintro rfl
      exact absurd (Double.mem_writePlain hc) (by decide)
    have hpercent : c ≠ '%' := by
      rintro rfl
      exact absurd (Double.mem_writePlain hc) (by decide)
    rw [bne_iff_ne.mpr hp, bne_iff_ne.mpr hpercent]
    rfl
  have hend : unit.takeWhile (fun c => c != 'p' && c != '%') = [] := by
    revert unit
    decide
  rw [dropUnit, List.takeWhile_append_of_pos hnumber, hend, List.append_nil]

theorem blank_notMem_writePlain (x : Double) : ' ' ∉ x.writePlain :=
  fun hc => absurd (Double.mem_writePlain hc) (by decide)

namespace Node

variable {n : Node}

/-- The radii of a node, first that of all corners. -/
def radii (n : Node) : List Double :=
  n.cornerRadius.toList ++ (n.cornerRadii.map CornerRadii.toList).getD []

theorem toList_pixels (x : Double) : (pixels x).toList = x.writePlain ++ "px".toList :=
  String.toList_ofList

theorem blank_notMem_pixels (x : Double) : ' ' ∉ (pixels x).toList := by
  rw [toList_pixels, List.mem_append, not_or]
  exact ⟨blank_notMem_writePlain x, by decide⟩

/-- Lengths with blanks between them are read back. -/
theorem numbers_pixels {xs : List Double} (hne : xs ≠ []) (property : String) :
    numbers ⟨property, " ".intercalate (xs.map pixels)⟩ = xs.map Double.writePlain := by
  have hvalue : (" ".intercalate (xs.map pixels)).toList
      = [' '].intercalate ((xs.map pixels).map String.toList) := String.toList_intercalate
  rw [numbers, hvalue, List.splitOn_intercalate, List.map_map, List.map_map]
  · refine List.map_congr_left fun x _ => ?_
    rw [Function.comp_apply, Function.comp_apply, toList_pixels, dropUnit_writePlain (by simp)]
  · intro cs hcs
    rw [List.map_map] at hcs
    obtain ⟨x, -, rfl⟩ := List.mem_map.mp hcs
    exact blank_notMem_pixels x
  · simpa using hne

/-- The first number of a line is its width. -/
theorem head?_numbers_line (property : String) (x : Double) (rest : String) :
    (numbers ⟨property, pixels x ++ " solid " ++ rest⟩).head? = some x.writePlain := by
  have hvalue : (pixels x ++ " solid " ++ rest).toList
      = (pixels x).toList ++ ' ' :: ("solid ".toList ++ rest.toList) := by
    rw [String.toList_append, String.toList_append, List.append_assoc]
    rfl
  rw [numbers, hvalue, List.splitOn_append_cons_self_of_not_mem (blank_notMem_pixels x),
    List.map_cons, List.head?_cons, toList_pixels, dropUnit_writePlain (by simp)]

theorem declarePlain_pixels_iff {property : String} {xs : List Double}
    (hproperty : property ∈ geometryProperties) (hne : xs ≠ []) :
    DeclarePlain [⟨property, " ".intercalate (xs.map pixels)⟩] ↔ ∀ x ∈ xs, x.isFinite = true := by
  rw [declarePlain_singleton hproperty, numbers_pixels hne, List.forall_mem_map]
  exact forall₂_congr fun _ _ => Double.isPlainDecimal_writePlain_iff

theorem declarePlain_length_cons (property : String) (hproperty : property ∈ geometryProperties)
    {x : Double} {ds : List Declaration} :
    DeclarePlain (⟨property, pixels x⟩ :: ds) ↔ x.isFinite = true ∧ DeclarePlain ds := by
  have hpixels : pixels x = " ".intercalate ([x].map pixels) := rfl
  rw [declarePlain_cons, hpixels, declarePlain_pixels_iff hproperty (List.cons_ne_nil _ _),
    List.forall_mem_singleton]

theorem declarePlain_opacityDeclarations_iff :
    DeclarePlain n.opacityDeclarations ↔ n.opacity.isFinite = true := by
  unfold opacityDeclarations
  split
  · rename_i hone
    rw [hone]
    exact iff_of_true declarePlain_nil (by decide +kernel)
  · have hnumbers : numbers ⟨"opacity", String.ofList n.opacity.writePlain⟩
        = [n.opacity.writePlain] := by
      have hunit : dropUnit (n.opacity.writePlain ++ []) = n.opacity.writePlain :=
        dropUnit_writePlain (by decide)
      rw [List.append_nil] at hunit
      rw [numbers, String.toList_ofList, List.splitOn_eq_singleton (blank_notMem_writePlain _),
        List.map_singleton, hunit]
    have hproperty : "opacity" ∈ geometryProperties := by decide
    rw [declarePlain_singleton hproperty, hnumbers, List.forall_mem_singleton]
    exact Double.isPlainDecimal_writePlain_iff

theorem declarePlain_radiusDeclarations_iff :
    DeclarePlain n.radiusDeclarations ↔ ∀ x ∈ n.radii, x.isFinite = true := by
  rw [radiusDeclarations, declarePlain_append, radii, List.forall_mem_append]
  refine and_congr ?_ ?_
  · cases n.cornerRadius with
    | none => exact iff_of_true declarePlain_nil fun _ hx => absurd hx List.not_mem_nil
    | some r =>
      rw [Option.toList_some, List.forall_mem_singleton, Option.map_some, Option.toList_some,
        declarePlain_length_cons "border-radius" (by decide), and_iff_left declarePlain_nil]
  · cases n.cornerRadii with
    | none => exact iff_of_true declarePlain_nil fun _ hx => absurd hx List.not_mem_nil
    | some rs => exact declarePlain_pixels_iff (by decide) (List.cons_ne_nil _ _)

/-- A box declares plain decimals exactly if place, size, opacity and radii of its node are finite. -/
theorem declarePlain_boxDeclarations_iff :
    DeclarePlain n.boxDeclarations
      ↔ ∀ x ∈ [n.x, n.y, n.width, n.height, n.opacity] ++ n.radii, x.isFinite = true := by
  simp only [boxDeclarations, declarePlain_append, declarePlain_length_cons "left" (by decide),
    declarePlain_length_cons "top" (by decide), declarePlain_length_cons "width" (by decide),
    declarePlain_length_cons "height" (by decide), and_iff_left declarePlain_nil,
    declarePlain_opacityDeclarations_iff, declarePlain_radiusDeclarations_iff,
    List.forall_mem_append, List.forall_mem_cons, List.not_mem_nil, IsEmpty.forall_iff, implies_true,
    true_and, and_assoc]

/-- A section declares plain decimals exactly if size and radii of its node are finite. -/
theorem declarePlain_sectionDeclarations_iff :
    DeclarePlain n.sectionDeclarations
      ↔ ∀ x ∈ [n.width, n.height] ++ n.radii, x.isFinite = true := by
  have hposition : DeclarePlain [⟨"position", "relative"⟩] := declarePlain_of_notMem (by decide)
  have hoverflow : DeclarePlain [⟨"overflow", "hidden"⟩] := declarePlain_of_notMem (by decide)
  rw [sectionDeclarations, declarePlain_append, declarePlain_length_cons "width" (by decide),
    declarePlain_length_cons "height" (by decide), and_iff_left hposition, List.forall_mem_append,
    List.forall_mem_cons, List.forall_mem_singleton, ← declarePlain_radiusDeclarations_iff]
  refine and_congr_right fun _ => ?_
  -- the corners are cut off only where there are some
  split
  · rename_i hnone
    rw [hnone]
  · rw [declarePlain_append, and_iff_left hoverflow]

/-- The box of a node declares plain decimals exactly if its own declarations are, whatever else
there is for a text. -/
theorem declarePlain_box_iff {registry : StyleRegistry} {b : Box} (h : n.box registry = .ok b) :
    DeclarePlain b.style
      ↔ ∀ x ∈ [n.x, n.y, n.width, n.height, n.opacity] ++ n.radii, x.isFinite = true := by
  rcases box_cases h with ⟨-, hstyle, -⟩ | ⟨text, p, -, -, hstyle, -⟩
  · rw [hstyle, declarePlain_boxDeclarations_iff]
  · have hcentring : DeclarePlain centring := declarePlain_of_notMem (by decide)
    rw [hstyle, declarePlain_append, and_iff_left hcentring, declarePlain_boxDeclarations_iff]

/-- The paragraph of a text declares a width of one hundred per cent and nothing else in numbers. -/
theorem declarePlain_paragraph {text : TextContent} {p : Paragraph} (h : n.paragraph text = .ok p) :
    DeclarePlain p.style := by
  have hmetrics : ∀ property ∈ Typography.metricProperties, property ∉ geometryProperties := by
    decide
  have hwidth : numbers ⟨"width", "100%"⟩ = ["100".toList] := by decide
  obtain ⟨color, -, h⟩ := bind_eq_ok_iff.mp h
  rw [← Except.ok.inj h, declarePlain_append]
  constructor
  · have hmargin : DeclarePlain [⟨"margin", "0"⟩] := declarePlain_of_notMem (by decide)
    have hhundred : DeclarePlain [⟨"width", "100%"⟩] := by
      rw [declarePlain_singleton (by decide), hwidth, List.forall_mem_singleton]
      exact isPlainDecimal_intDigits 100
    rw [declarePlain_cons, and_iff_right hmargin, declarePlain_cons, and_iff_right hhundred]
    refine declarePlain_of_notMem ?_
    simp only [List.forall_mem_cons]
    exact ⟨by decide, by decide, by decide, fun d hd => absurd hd List.not_mem_nil⟩
  · exact declarePlain_of_notMem fun d hd =>
      hmetrics _ (Typography.exists_key_of_mem_metrics hd).1

end Node

end FrameExport
