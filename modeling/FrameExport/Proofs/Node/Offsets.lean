import FrameExport.DesignFile
import FrameExport.Proofs.Double.Exact
import FrameExport.Proofs.Fallible
import FrameExport.Proofs.Node.Place
import Mathlib.Data.List.Chain

/-!
# Offsets along a trail

Every node below the root is placed against its parent alone.  So along a trail that leads down from
the root the offsets are the differences of the corners in a row (`Node.map_x_placeTrail`), and they
cancel each other: if no difference needs to be rounded, they add up to the difference of the last
corner and the first (`Composes.sum`).  A node without a box has its corner at zero; what its own
offset takes away, the offset of the next node adds.
-/

namespace FrameExport

open Double (units? HasExactDifference)

/-! ### Trails -/

namespace Tree

variable {α : Type}

/-- The values from the root down to the node at the end of a path, which tells for every level which
child to go to. -/
def trail : Tree α → List Nat → Option (List α)
  | t, [] => some [t.value]
  | t, i :: path => t.children[i]?.bind fun child => (child.trail path).map (t.value :: ·)

/-- A trail begins at the root. -/
theorem exists_cons_of_trail {t : Tree α} {path : List Nat} {as : List α}
    (h : t.trail path = some as) : ∃ rest, as = t.value :: rest := by
  cases path with
  | nil => exact ⟨[], (Option.some.inj h).symm⟩
  | cons i path =>
    rw [trail] at h
    obtain ⟨child, -, hchild⟩ := Option.bind_eq_some_iff.mp h
    obtain ⟨rest, -, hrest⟩ := Option.map_eq_some_iff.mp hchild
    exact ⟨rest, hrest.symm⟩

end Tree

/-! ### Numbers in a row -/

/-- The differences of numbers in a row, the first one being that to a number before them. -/
def differences (before : Double) : List Double → List Double
  | [] => []
  | x :: xs => (x - before) :: differences x xs

theorem length_differences (before : Double) (xs : List Double) :
    (differences before xs).length = xs.length := by
  induction xs generalizing before with
  | nil => rfl
  | cons x xs ih => rw [differences, List.length_cons, ih, List.length_cons]

theorem getElem?_differences {before parent own : Double} {xs : List Double} {k : Nat}
    (hparent : (before :: xs)[k]? = some parent) (hown : xs[k]? = some own) :
    (differences before xs)[k]? = some (own - parent) := by
  induction xs generalizing before k with
  | nil => cases hown
  | cons x xs ih =>
    cases k with
    | zero =>
      obtain rfl : before = parent := Option.some.inj hparent
      obtain rfl : x = own := Option.some.inj hown
      rfl
    | succ k => exact ih hparent hown

/-- Exact differences of numbers in a row add up to the difference of the last and the first. -/
theorem sum_differences {before : Double} {xs : List Double} {first : Int}
    (hfirst : before.units? = some first)
    (hexact : (before :: xs).IsChain fun parent own => own.HasExactDifference parent) :
    ∃ (last : Int) (values : List Int), (before :: xs).getLast?.bind units? = some last ∧
      (differences before xs).map units? = values.map some ∧ values.sum = last - first := by
  induction xs generalizing before first with
  | nil => exact ⟨first, [], hfirst, rfl, (Int.sub_self first).symm⟩
  | cons x xs ih =>
    rw [List.isChain_cons_cons] at hexact
    obtain ⟨⟨own, parent, z, hown, hparent, hz⟩, hrest⟩ := hexact
    obtain rfl : parent = first := Option.some.inj (hparent.symm.trans hfirst)
    obtain ⟨last, values, hlast, hvalues, hsum⟩ := ih hown hrest
    refine ⟨last, (own - parent) :: values, ?_, ?_, ?_⟩
    · rw [List.getLast?_cons_cons]
      exact hlast
    · rw [differences, List.map_cons, List.map_cons, hvalues,
        Double.units?_sub hown hparent ⟨z, hz⟩]
    · rw [List.sum_cons, hsum]
      omega

/-- Offsets in a row compose to positions: the first one is zero, each of the others is the
difference of its position and the one before, and if no difference needs to be rounded, all of them
add up to the difference of the last position and the first, in units. -/
structure Composes (positions offsets : List Double) : Prop where
  length_eq : offsets.length = positions.length
  head_eq : offsets.head? = some .zero
  step : ∀ {k : Nat} {parent own : Double}, positions[k]? = some parent →
    positions[k + 1]? = some own → offsets[k + 1]? = some (own - parent)
  sum : (positions.IsChain fun parent own => own.HasExactDifference parent) →
    ∃ (first last : Int) (values : List Int), positions.head?.bind units? = some first ∧
      positions.getLast?.bind units? = some last ∧
      offsets.map units? = values.map some ∧ values.sum = last - first

/-- The differences to a finite number and behind it compose. -/
theorem composes_differences {x : Double} (hx : x.isFinite = true) (xs : List Double) :
    Composes (x :: xs) (differences x (x :: xs)) := by
  have hzero := Double.sub_self_of_isFinite hx
  refine ⟨length_differences x (x :: xs), congrArg some hzero, getElem?_differences, ?_⟩
  intro hexact
  obtain ⟨first, hfirst⟩ : ∃ first, x.units? = some first := by
    cases x with
    | finite negative r => exact ⟨_, rfl⟩
    | _ => cases hx
  obtain ⟨last, values, hlast, hvalues, hsum⟩ := sum_differences hfirst hexact
  refine ⟨first, last, 0 :: values, hfirst, hlast, ?_, ?_⟩
  · rw [differences, hzero, List.map_cons, List.map_cons, hvalues,
      Double.units?_zero]
  · rw [List.sum_cons, hsum, Int.zero_add]

namespace Node

/-! ### Trails of placed nodes -/

/-- The nodes of a trail, the first one as seen from the point `(x, y)` and every other one as seen
from the corner of the one before. -/
def placeTrail (x y : Double) : List SourceNode → List Node
  | [] => []
  | source :: sources => ofSource x y source :: placeTrail source.origin.1 source.origin.2 sources

theorem map_x_placeTrail (x y : Double) (sources : List SourceNode) :
    (placeTrail x y sources).map Node.x = differences x (sources.map fun s => s.origin.1) := by
  induction sources generalizing x y with
  | nil => rfl
  | cons source sources ih => rw [placeTrail, List.map_cons, ih, List.map_cons, differences]; rfl

theorem map_y_placeTrail (x y : Double) (sources : List SourceNode) :
    (placeTrail x y sources).map Node.y = differences y (sources.map fun s => s.origin.2) := by
  induction sources generalizing x y with
  | nil => rfl
  | cons source sources ih => rw [placeTrail, List.map_cons, ih, List.map_cons, differences]; rfl

/-- The trails of placed trees are the placed trails. -/
theorem trail_place (x y : Double) (t : Tree SourceNode) (path : List Nat) :
    (place x y t).trail path = (t.trail path).map (placeTrail x y) := by
  induction path generalizing x y t with
  | nil =>
    obtain ⟨source, ts⟩ := t
    rfl
  | cons i path ih =>
    obtain ⟨source, ts⟩ := t
    rw [Tree.trail, Tree.trail, place]
    simp only [Tree.children, Tree.value, placeAll_eq_map, List.getElem?_map]
    cases ts[i]? with
    | none => rfl
    | some child =>
      simp only [Option.map_some, Option.bind_some, ih, Option.map_map]
      rfl

end Node

namespace DesignFile

/-! ### The placed frame -/

/-- The frame of a file is placed as its root. -/
theorem rootIn_of_frame {file : Json} {design : DesignFile} {frame : Tree SourceNode}
    (hread : read file = .ok design) (hframe : design.frame = .ok frame) :
    rootIn file = .ok (root frame) := by
  rw [rootIn, hread]
  exact bind_eq_ok_iff.mpr ⟨design, rfl, bind_eq_ok_iff.mpr ⟨_, hframe, rfl⟩⟩

/-- A node has a finite corner if its box has one. -/
theorem isFinite_origin {source : SourceNode}
    (h : ∀ box, source.bounds = some box → box.x.isFinite = true ∧ box.y.isFinite = true) :
    source.origin.1.isFinite = true ∧ source.origin.2.isFinite = true := by
  unfold SourceNode.origin
  cases hbounds : source.bounds with
  | none => exact ⟨Double.isFinite_zero, Double.isFinite_zero⟩
  | some box => exact h box hbounds

/-- **Offsets compose to positions.**  If all boxes of the frame of a file have finite corners, the
placed frame has its own corner at zero, every other node lies at the difference of its corner and its
parent's, and the offsets along every trail compose to the corners on it, those of nodes without a
box being zero. -/
theorem composes_trail {file : Json} {design : DesignFile} {frame : Tree SourceNode}
    (hread : read file = .ok design) (hframe : design.frame = .ok frame)
    (hfinite : ∀ source ∈ frame.preorder, ∀ box, source.bounds = some box →
      box.x.isFinite = true ∧ box.y.isFinite = true) :
    rootIn file = .ok (root frame) ∧
    (root frame).value.x = .zero ∧ (root frame).value.y = .zero ∧
    ∀ path, ((root frame).trail path).isSome = (frame.trail path).isSome ∧
      ∀ nodes sources, (root frame).trail path = some nodes → frame.trail path = some sources →
        Composes (sources.map fun s => s.origin.1) (nodes.map Node.x) ∧
        Composes (sources.map fun s => s.origin.2) (nodes.map Node.y) := by
  refine ⟨rootIn_of_frame hread hframe, ?_⟩
  obtain ⟨value, children⟩ := frame
  have horigin := isFinite_origin (hfinite value List.mem_cons_self)
  refine ⟨Double.sub_self_of_isFinite horigin.1, Double.sub_self_of_isFinite horigin.2, ?_⟩
  intro path
  rw [root, Node.trail_place]
  refine ⟨Option.isSome_map, fun nodes sources hnodes hsources => ?_⟩
  obtain rfl : Node.placeTrail value.origin.1 value.origin.2 sources = nodes := by
    rw [hsources] at hnodes
    exact Option.some.inj hnodes
  obtain ⟨rest, rfl⟩ := Tree.exists_cons_of_trail hsources
  rw [Node.map_x_placeTrail, Node.map_y_placeTrail]
  exact ⟨composes_differences horigin.1 _, composes_differences horigin.2 _⟩

/-- A frame with a corner at `(x, x)`, with a node without a box that holds a node at `(y, y)`. -/
def nested (x y : Double) : Json :=
  .obj [("document", .obj [("children", .arr [.obj [("children", .arr [.obj [
    ("type", .str "FRAME"), ("name", .str "Frame"),
    ("absoluteBoundingBox", .obj [("x", .double x), ("y", .double x)]),
    ("children", .arr [.obj [("children", .arr [.obj [
      ("absoluteBoundingBox", .obj [("x", .double y), ("y", .double y)])]])]])]])]])])]

/-- With the frame at one and the inner node at one half, the three offsets add up to minus one half:
what the node without a box takes away, the inner node adds. -/
theorem composes_trail_nested :
    ∃ tree nodes, ∃ values : List Int, rootIn (nested .one .half) = .ok tree ∧
      tree.value.x = .zero ∧ tree.trail [0, 0] = some nodes ∧
      (nodes.map Node.x).map units? = values.map some ∧
      2 * values.sum = -(Double.unitsPerOne : Int) := by
  have hone : units? .one = some (Double.unitsPerOne : Int) := by decide +kernel
  have hhalf : units? .half = some (Double.unitsPerOne / 2 : Int) := by decide +kernel
  have hminus : units? (Double.neg .one) = some (0 - (Double.unitsPerOne : Int)) := by decide +kernel
  have hfinite : Double.one.isFinite = true ∧ Double.half.isFinite = true := by decide +kernel
  have hexact : List.IsChain (fun parent own => own.HasExactDifference parent)
      [Double.one, Double.zero, Double.half] := by
    refine .cons_cons ⟨_, _, _, Double.units?_zero, hone, hminus⟩ (.cons_cons ?_ (.singleton _))
    exact ⟨_, _, .half, hhalf, Double.units?_zero, by rw [hhalf, Int.sub_zero]⟩
  have hsum : 2 * ((Double.unitsPerOne / 2 : Int) - Double.unitsPerOne)
      = -(Double.unitsPerOne : Int) := by decide +kernel
  -- reading computes with neither number, which are large as terms
  generalize Double.one = x at *
  generalize Double.half = y at *
  have hread : read (nested x y) = _ := rfl
  obtain ⟨hroot, hx, -, htrails⟩ := composes_trail hread rfl (by
    intro source hsource box hbox
    rcases hsource with _ | ⟨_, _ | ⟨_, _ | ⟨_, hnone⟩⟩⟩
    · obtain rfl := Option.some.inj hbox
      exact ⟨hfinite.1, hfinite.1⟩
    · cases hbox
    · obtain rfl := Option.some.inj hbox
      exact ⟨hfinite.2, hfinite.2⟩
    · cases hnone)
  obtain ⟨hcomposes, -⟩ := (htrails [0, 0]).2 _ _ rfl rfl
  obtain ⟨first, last, values, hfirst, hlast, hvalues, hvalue⟩ := hcomposes.sum hexact
  obtain rfl := Option.some.inj (hone.symm.trans hfirst)
  obtain rfl := Option.some.inj (hhalf.symm.trans hlast)
  exact ⟨_, _, values, hroot, hx, rfl, hvalues, hvalue ▸ hsum⟩

end DesignFile

end FrameExport
