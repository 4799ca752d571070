import FrameExport.DesignFile
import FrameExport.Proofs.Node.Values
import Mathlib.Algebra.BigOperators.Group.List.Basic
import Mathlib.Algebra.Ring.Nat

/-!
# The faults of nodes

`SourceNode.fieldKinds` says of each field of a node what it may hold, and `FieldKind.faults` how many
faults there are in a value of such a field.  `faultsIn` counts the faults of one value that stands in
the place of a node: those of its fields, or one if it is no object.

Reading counts the faults of one value after the other: as long as there are not too many levels, the
faults of a tree are the sum of those of its values (`faults_readLevels`), so in whatever order they are
added up.  The headline is `placed_or_refused_with_faults`: nodes are placed if this sum is zero, and
are refused with the sum otherwise.
-/

namespace FrameExport

namespace Checked

variable {α β : Type}

/-- The faults of values in a row add up. -/
theorem faults_all (xs : List (Checked α)) : (all xs).faults = (xs.map faults).sum := by
  induction xs with
  | nil => rfl
  | cons x xs ih => rw [all, faults_seq, faults_map, ih, List.map_cons, List.sum_cons]

/-- If every value in a row has one fault at most, the faults are as many as the faulty values. -/
theorem faults_all_map {read : α → Checked β} {p : α → Bool}
    (h : ∀ a, (read a).faults = if p a then 1 else 0) (as : List α) :
    (all (as.map read)).faults = as.countP p := by
  induction as with
  | nil => rfl
  | cons a as ih =>
    rw [List.map_cons, all, faults_seq, faults_map, ih, h, List.countP_cons, Nat.add_comm]

end Checked

namespace SourceNode

/-! ### The faults of fields -/

/-- What a field of a node may hold besides null. -/
inductive FieldKind where
  | text
  | number
  | object
  | objects
  | numbers
  | box
  /-- An array, whatever is in it. -/
  | array
deriving DecidableEq, Repr

/-- Whether a value is no object. -/
def isNoObject (v : Json) : Bool := v.fields?.isNone

/-- Whether a value is no number, and does not stand for one. -/
def isNoNumber (v : Json) : Bool := (number? v).isNone

/-- How many faults there are in the value of a field. -/
def FieldKind.faults : FieldKind → Json → Nat
  | _, .null => 0
  | .text, .str _ => 0
  | .number, v => if isNoNumber v then 1 else 0
  | .object, .obj _ => 0
  | .objects, .arr items => items.countP isNoObject
  | .numbers, .arr items => items.countP isNoNumber
  | .box, .obj fields =>
    ["x", "y", "width", "height"].countP fun key => (fields.lookup key).any isNoNumber
  | .array, .arr _ => 0
  | _, _ => 1

/-- The fields of a node and what they may hold. -/
def fieldKinds : List (String × FieldKind) := [
  ("id", .text),
  ("name", .text),
  ("type", .text),
  ("absoluteBoundingBox", .box),
  ("fills", .objects),
  ("strokes", .objects),
  ("strokeWeight", .number),
  ("effects", .objects),
  ("opacity", .number),
  ("cornerRadius", .number),
  ("rectangleCornerRadii", .numbers),
  ("characters", .text),
  ("style", .object),
  ("children", .array)]

/-- How many faults there are in one value that stands in the place of a node, without those of the
nodes below it. -/
def faultsIn : Json → Nat
  | .obj fields => (fieldKinds.map fun f => f.2.faults (Fields.get fields f.1)).sum
  | _ => 1

variable {v : Json}

theorem faults_readName (v : Json) : (readName v).faults = FieldKind.text.faults v := by
  cases v <;> rfl

/-- Null is no fault in a field that takes a value or null. -/
theorem faults_readOptional {α : Type} {read : Json → Checked α} {kind : FieldKind}
    (h : ∀ v, v ≠ .null → (read v).faults = kind.faults v) (v : Json) :
    (readOptional read v).faults = kind.faults v := by
  cases v with
  | null => cases kind <;> rfl
  | _ => exact h _ nofun

theorem faults_readOptional_readText (v : Json) :
    (readOptional readText v).faults = FieldKind.text.faults v := by
  cases v <;> rfl

theorem faults_readOptional_readObject (v : Json) :
    (readOptional readObject v).faults = FieldKind.object.faults v := by
  cases v <;> rfl

theorem faults_readNumber (v : Json) :
    (readNumber v).faults = if isNoNumber v then 1 else 0 := by
  rw [readNumber, isNoNumber]
  cases number? v <;> rfl

theorem faults_readObject (v : Json) :
    (readObject v).faults = if isNoObject v then 1 else 0 := by
  cases v <;> rfl

theorem faults_readOptional_readNumber (v : Json) :
    (readOptional readNumber v).faults = FieldKind.number.faults v := by
  refine faults_readOptional (fun v hv => ?_) v
  rw [faults_readNumber, FieldKind.faults]
  exact hv

theorem faults_readList_readObject (v : Json) :
    (readList readObject v).faults = FieldKind.objects.faults v := by
  cases v with
  | arr items => exact Checked.faults_all_map faults_readObject items
  | _ => rfl

theorem faults_readOptional_readItems (v : Json) :
    (readOptional (readItems readNumber) v).faults = FieldKind.numbers.faults v := by
  cases v with
  | arr items => exact Checked.faults_all_map faults_readNumber items
  | _ => rfl

theorem faults_readExtent (fields : Fields) (key : String) :
    (readExtent fields key).faults = if (fields.lookup key).any isNoNumber then 1 else 0 := by
  rw [readExtent]
  cases fields.lookup key with
  | none => rfl
  | some v => exact faults_readNumber v

theorem faults_readOptional_readBounds (v : Json) :
    (readOptional readBounds v).faults = FieldKind.box.faults v := by
  cases v with
  | obj fields =>
    simp only [readOptional, readBounds, Checked.faults_map, Checked.faults_seq, faults_readExtent,
      FieldKind.faults, List.countP_cons, List.countP_nil]
    omega
  | _ => rfl

/-- The faults of a node, and those of its children if they are no array. -/
theorem faultsIn_obj (fields : Fields) :
    faultsIn (.obj fields)
      = (readFields fields).faults + FieldKind.array.faults (fields.get "children") := by
  simp only [faultsIn, fieldKinds, List.map_cons, List.map_nil, List.sum_cons, List.sum_nil,
    readFields, Checked.faults_seq, Checked.faults_map, faults_readName,
    faults_readOptional_readText, faults_readOptional_readObject, faults_readOptional_readNumber,
    faults_readList_readObject, faults_readOptional_readItems, faults_readOptional_readBounds]
  omega

/-! ### The faults of trees -/

/-- The faults of all values in a tree. -/
def totalFaults (t : Tree Json) : Nat := (t.preorder.map faultsIn).sum

theorem totalFaults_node (v : Json) (ts : List (Tree Json)) :
    totalFaults (.node v ts) = faultsIn v + (ts.map totalFaults).sum := by
  have hbelow : ((Tree.preorderAll ts).map faultsIn).sum = (ts.map totalFaults).sum := by
    induction ts with
    | nil => rfl
    | cons t ts ih =>
      rw [Tree.preorderAll, List.map_append, List.sum_append, ih, List.map_cons, List.sum_cons]
      rfl
  rw [totalFaults, Tree.preorder, List.map_cons, List.sum_cons, hbelow]

/-- **Reading counts every fault once**: with enough levels, the faults of a tree of nodes are the sum
of the faults of the values in it. -/
theorem faults_readLevels {levels : Nat} (h : SourceNode.levels (values v) ≤ levels) :
    (readLevels levels v).faults = totalFaults (values v) := by
  -- what is no object has one fault, on every level
  have hleaf : ∀ v, isNoObject v = true → totalFaults (values v) = 1 := by
    intro v hv
    cases v with
    | obj fields => cases hv
    | _ => rfl
  -- one level of nodes for each level that is read, so the last is never reached by an object
  induction levels generalizing v with
  | zero =>
    cases v with
    | obj fields =>
      rw [levels_values_obj] at h
      omega
    | _ => exact (hleaf _ rfl).symm
  | succ levels ih =>
    cases v with
    | obj fields =>
      rw [levels_values_obj, Nat.add_le_add_iff_right] at h
      rw [readLevels, Checked.faults_seq, Checked.faults_map, values_obj, totalFaults_node,
        faultsIn_obj, Nat.add_assoc, Nat.add_left_cancel_iff]
      cases hchildren : Fields.get fields "children" with
      | arr items =>
        rw [hchildren, valuesIn_arr, levelsAll_le_iff] at h
        have hitems : ∀ item ∈ items,
            (readLevels levels item).faults = totalFaults (values item) :=
          fun item hitem => ih (h _ (List.mem_map_of_mem hitem))
        rw [valuesIn_arr, readList, Checked.faults_all, List.map_map, List.map_map,
          FieldKind.faults, Nat.zero_add]
        exact congrArg List.sum (List.map_congr_left hitems)
      | _ => rfl
    | _ => exact (hleaf _ rfl).symm

/-! ### Nodes that are read or refused -/

/-- **Nodes are refused with the number of all faults.**  For a value with at most 255 levels of nodes,
let `N` be the sum of the faults of the values that stand in it in the place of nodes, added up in
whatever order.  If `N` is zero, the tree of nodes is read, and it is placed at whatever point.  If not,
there is an error which tells `N`, and there is no other error. -/
theorem placed_or_refused_with_faults (v : Json) (x y : Double) (hlevels : levels (values v) ≤ 255)
    (inOrder : List Json) (horder : inOrder.Perm (values v).preorder) :
    ((∃ root, (readTree v).map (Node.place x y) = .ok root) ↔ (inOrder.map faultsIn).sum = 0)
      ∧ ∀ error, (readTree v).map (Node.place x y) = .error error
        ↔ (inOrder.map faultsIn).sum ≠ 0 ∧ error = .invalidNode (inOrder.map faultsIn).sum
          ∧ error.message = "Ogiltig nod i dokumentet: "
            ++ String.ofList (digitsOf (inOrder.map faultsIn).sum) ++ " valideringsfel" := by
  have hsum : (inOrder.map faultsIn).sum = (readLevels maxLevels v).faults := by
    rw [show maxLevels = 255 from rfl, faults_readLevels hlevels, totalFaults]
    exact (horder.map faultsIn).sum_eq
  rw [hsum, readTree, read, Checked.toExcept]
  by_cases hzero : (readLevels maxLevels v).faults = 0
  · rw [if_pos hzero]
    refine ⟨⟨fun _ => hzero, fun _ => ⟨_, rfl⟩⟩, fun error => ⟨fun h => ?_, fun h => ?_⟩⟩
    · cases h
    · exact absurd hzero h.1
  · rw [if_neg hzero]
    refine ⟨⟨fun ⟨root, h⟩ => ?_, fun h => absurd h hzero⟩, fun error => ⟨fun h => ?_, fun h => ?_⟩⟩
    · cases h
    · obtain rfl := Except.error.inj h
      exact ⟨hzero, rfl, rfl⟩
    · rw [h.2.1]
      rfl

/-- A node with faults on two levels: the identifier is no text, one of the fills is no object and one
of the children is no node; the other child has an opacity that is no number and children that are no
list. -/
def faultyNode : Json :=
  .obj [("id", .bool true), ("fills", .arr [.bool true, .obj []]), ("children", .arr [
    .str "node", .obj [("opacity", .str "half"), ("children", .obj [])]])]

theorem placed_or_refused_with_faults_faultyNode :
    (readTree faultyNode).map (Node.place .zero .zero) = .error (.invalidNode 5) := by
  have hlevels : levels (values faultyNode) ≤ 255 := by decide
  have hsum : ((values faultyNode).preorder.reverse.map faultsIn).sum = 5 := by decide
  have hrefused := (placed_or_refused_with_faults faultyNode .zero .zero hlevels _
    (List.reverse_perm _)).2 (.invalidNode 5)
  rw [hrefused, hsum]
  exact ⟨by decide, rfl, rfl⟩

end SourceNode

end FrameExport
