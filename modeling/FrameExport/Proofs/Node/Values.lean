import FrameExport.Node.Source
import FrameExport.Proofs.Json.Fields

/-!
# Values in the place of nodes

`SourceNode.values` is the tree of the values that stand in a value where nodes belong: the value
itself, and below an object the items of its field `children`.  It is there for every value, whether
or not nodes can be read from it, and says nothing of what is in them.  The nodes that are read from
a value, and their faults, are told by this tree.

`SourceNode.levels` counts how many objects lie in each other in it.
-/

namespace FrameExport

namespace SourceNode

/-! ### The tree of values -/

mutual

/-- The values that stand in a value where nodes belong, the value itself at the root. -/
def values : Json → Tree Json
  | .obj fields => .node (.obj fields) (valuesBelow fields)
  | v => .leaf v

/-- What stands below an object with the given fields. -/
def valuesBelow : List (String × Json) → List (Tree Json)
  | [] => []
  | (key, v) :: fields => if key = "children" then valuesIn v else valuesBelow fields

/-- The trees of the items of an array; any other value has no items. -/
def valuesIn : Json → List (Tree Json)
  | .arr items => valuesAll items
  | _ => []

/-- The trees of several values. -/
def valuesAll : List Json → List (Tree Json)
  | [] => []
  | v :: vs => values v :: valuesAll vs

end

theorem valuesAll_eq_map (vs : List Json) : valuesAll vs = vs.map values := by
  induction vs with
  | nil => rfl
  | cons v vs ih => rw [valuesAll, ih, List.map_cons]

theorem valuesBelow_eq (fields : Fields) : valuesBelow fields = valuesIn (fields.get "children") := by
  induction fields with
  | nil => rfl
  | cons f fields ih =>
    obtain ⟨key, v⟩ := f
    rw [valuesBelow, Fields.get_cons, ih]
    simp only [eq_comm (a := "children")]
    split <;> rfl

theorem values_obj (fields : Fields) :
    values (.obj fields) = .node (.obj fields) (valuesIn (fields.get "children")) := by
  rw [values, valuesBelow_eq]

theorem valuesIn_arr (items : List Json) : valuesIn (.arr items) = items.map values := by
  rw [valuesIn, valuesAll_eq_map]

/-! ### Levels -/

mutual

/-- How many objects at most lie one below the other in a tree of values. -/
def levels : Tree Json → Nat
  | .node (.obj _) ts => levelsAll ts + 1
  | .node _ _ => 0

/-- The greatest number of levels of several trees. -/
def levelsAll : List (Tree Json) → Nat
  | [] => 0
  | t :: ts => max (levels t) (levelsAll ts)

end

theorem levelsAll_le_iff {ts : List (Tree Json)} {n : Nat} :
    levelsAll ts ≤ n ↔ ∀ t ∈ ts, levels t ≤ n := by
  induction ts with
  | nil => simp [levelsAll]
  | cons t ts ih => rw [levelsAll, Nat.max_le, ih, List.forall_mem_cons]

theorem levels_values_obj (fields : Fields) :
    levels (values (.obj fields)) = levelsAll (valuesIn (fields.get "children")) + 1 := by
  rw [values_obj, levels]

end SourceNode

end FrameExport
