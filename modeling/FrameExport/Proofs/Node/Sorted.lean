import FrameExport.Proofs.Json.Sorted
import FrameExport.Proofs.Node.Place

/-!
# Nodes of files with sorted fields

Reading the nodes of a file does not look at the order of fields, nor does placing them: the nodes
of a file with sorted fields are those of the file, with sorted fields in what nobody has checked,
and its faults are the same in number (`SourceNode.read_sorted`, `Node.place_map_sorted`).
-/

namespace FrameExport

open Json (sortedObject get_sortedObject)

namespace Checked

variable {α β γ : Type}

theorem eq_of_value_of_faults {x y : Checked α} (hvalue : x.value = y.value)
    (hfaults : x.faults = y.faults) : x = y := by
  cases x
  cases y
  exact congrArg₂ _ hvalue hfaults

/-- Where each value in a row is changed in the same way, so is the row. -/
theorem all_map {read read' : α → Checked β} {f : β → β} {xs : List α}
    (h : ∀ x ∈ xs, read' x = f <$> read x) :
    all (xs.map read') = List.map f <$> all (xs.map read) := by
  induction xs with
  | nil => rfl
  | cons x xs ih =>
    obtain ⟨hx, hrest⟩ := List.forall_mem_cons.mp h
    rw [List.map_cons, List.map_cons, all, all, hx, ih hrest]
    rfl

theorem toExcept_map (f : α → β) (x : Checked α) : (f <$> x).toExcept = x.toExcept.map f := by
  unfold toExcept
  rw [faults_map, value_map]
  split <;> rfl

end Checked

namespace SourceNode

/-- The node with sorted fields in its paints, effects and typography. -/
def sorted (n : SourceNode) : SourceNode :=
  { n with
    fills := n.fills.map sortedObject
    strokes := n.strokes.map sortedObject
    effects := n.effects.map sortedObject
    style := n.style.map sortedObject }

/-! ### Reading values -/

theorem number?_sorted (v : Json) : number? v.sorted = number? v := by
  cases v <;> rfl

theorem readNumber_sorted (v : Json) : readNumber v.sorted = readNumber v := by
  rw [readNumber, readNumber, number?_sorted]

theorem readText_sorted (v : Json) : readText v.sorted = readText v := by
  cases v <;> rfl

theorem readName_sorted (v : Json) : readName v.sorted = readName v := by
  cases v <;> rfl

theorem readObject_sorted (v : Json) : readObject v.sorted = sortedObject <$> readObject v := by
  cases v with
  | obj => rfl
  | _ => exact congrArg Checked.faulty Json.sortedObject_nil.symm

section

variable {α : Type} {read : Json → Checked α} {f : α → α}

theorem readOptional_sorted (h : ∀ v, read v.sorted = f <$> read v) (v : Json) :
    readOptional read v.sorted = Option.map f <$> readOptional read v := by
  cases v with
  | null => rfl
  | _ =>
    refine (congrArg (some <$> ·) (h _)).trans ?_
    rfl

theorem all_sortedItems (h : ∀ v, read v.sorted = f <$> read v) (vs : List Json) :
    Checked.all ((Json.sortedItems vs).map read) = List.map f <$> Checked.all (vs.map read) := by
  rw [Json.sortedItems_eq_map, List.map_map]
  exact Checked.all_map fun v _ => h v

theorem readList_sorted (h : ∀ v, read v.sorted = f <$> read v) (v : Json) :
    readList read v.sorted = List.map f <$> readList read v := by
  cases v with
  | arr vs => exact all_sortedItems h vs
  | _ => rfl

theorem readItems_sorted (h : ∀ v, read v.sorted = f <$> read v) (v : Json) :
    readItems read v.sorted = List.map f <$> readItems read v := by
  cases v with
  | arr vs => exact all_sortedItems h vs
  | _ => rfl

theorem readBounds_sorted (v : Json) : readBounds v.sorted = readBounds v := by
  have hextent : ∀ fs key, readExtent (sortedObject fs) key = readExtent fs key := by
    intro fs key
    unfold readExtent
    rw [Json.lookup_sortedObject]
    cases fs.lookup key with
    | none => rfl
    | some v => exact readNumber_sorted v
  cases v with
  | obj fs =>
    show Bounds.mk <$> readExtent (sortedObject fs) "x" <*> readExtent (sortedObject fs) "y"
      <*> readExtent (sortedObject fs) "width" <*> readExtent (sortedObject fs) "height" = _
    simp only [hextent]
    rfl
  | _ => rfl

theorem readOptional_sorted_of_eq (h : ∀ v, read v.sorted = read v) (v : Json) :
    readOptional read v.sorted = readOptional read v := by
  have hid : ∀ v, read v.sorted = (fun a => a) <$> read v := h
  have hoptional := readOptional_sorted hid v
  rwa [Option.map_id_fun'] at hoptional

end

/-! ### Reading nodes -/

theorem readFields_sortedObject (fs : Fields) :
    readFields (sortedObject fs) = sorted <$> readFields fs := by
  have hnumber := fun v => readOptional_sorted_of_eq readNumber_sorted v
  have hradii : ∀ v, readOptional (readItems readNumber) v.sorted
      = readOptional (readItems readNumber) v := by
    refine fun v => readOptional_sorted_of_eq (fun v => ?_) v
    have hid : ∀ v, readNumber v.sorted = (fun x => x) <$> readNumber v := readNumber_sorted
    have hitems := readItems_sorted hid v
    rwa [List.map_id_fun'] at hitems
  simp only [readFields, get_sortedObject, readName_sorted,
    readOptional_sorted_of_eq readBounds_sorted, readList_sorted readObject_sorted, hnumber, hradii,
    readOptional_sorted_of_eq readText_sorted, readOptional_sorted readObject_sorted]
  rfl

theorem readLevels_sorted (levels : Nat) (v : Json) :
    readLevels levels v.sorted = Tree.map sorted <$> readLevels levels v := by
  induction levels generalizing v with
  | zero => rfl
  | succ levels ih =>
    cases v with
    | obj fs =>
      show Tree.node <$> readFields (sortedObject fs)
        <*> readList (readLevels levels) (Fields.get (sortedObject fs) "children") = _
      rw [readFields_sortedObject, get_sortedObject, readList_sorted ih]
      refine Checked.eq_of_value_of_faults ?_ rfl
      show Tree.node _ _ = Tree.node _ _
      rw [Tree.mapAll_eq_map]
      rfl
    | _ => rfl

/-- The nodes of a file with sorted fields, or as many faults. -/
theorem read_sorted (v : Json) : read v.sorted = (read v).map (Tree.map sorted) := by
  rw [read, read, readLevels_sorted, Checked.toExcept_map]

end SourceNode

/-! ### Placed nodes -/

/-- The text with sorted fields in its typography. -/
def TextContent.sorted (text : TextContent) : TextContent :=
  { text with style := sortedObject text.style }

namespace Node

/-- The node with sorted fields in its paints, effects and typography. -/
def sorted (n : Node) : Node :=
  { n with
    fills := n.fills.map sortedObject
    strokes := n.strokes.map sortedObject
    effects := n.effects.map sortedObject
    text := n.text.map TextContent.sorted }

theorem textOf_sorted (source : SourceNode) :
    textOf source.sorted = (textOf source).map TextContent.sorted := by
  unfold textOf
  show (if source.type = textKind then _ else _) = _
  split
  · cases hstyle : source.style with
    | none => simp [SourceNode.sorted, TextContent.sorted, hstyle, Json.sortedObject_nil]
    | some style => simp [SourceNode.sorted, TextContent.sorted, hstyle]
  · rfl

theorem ofSource_sorted (x y : Double) (source : SourceNode) :
    ofSource x y source.sorted = (ofSource x y source).sorted := by
  simp only [ofSource, sorted, textOf_sorted]
  rfl

/-- Placing does not look at what nobody has checked. -/
theorem place_map_sorted (x y : Double) (t : Tree SourceNode) :
    place x y (t.map SourceNode.sorted) = (place x y t).map sorted :=
  place_map (f := SourceNode.sorted) (fun _ => rfl) ofSource_sorted x y t

theorem textContent?_sorted (n : Node) :
    n.sorted.textContent? = n.textContent?.map TextContent.sorted := by
  unfold textContent?
  show (if n.type = textKind then _ else _) = _
  split <;> rfl

theorem isText_sorted (n : Node) : n.sorted.isText = n.isText := by
  rw [isText, isText, textContent?_sorted, Option.isSome_map]

end Node

end FrameExport
