import FrameExport.Node.Basic
import FrameExport.Proofs.Tree

/-!
# Placed nodes

Placing looks at the boxes of nodes only.  So what is changed in the nodes of a file and leaves their
corners alone is changed in the placed nodes in the same way (`Node.place_map`), and the trees in a
row are placed one by one (`Node.placeAll_eq_map`).
-/

namespace FrameExport

/-- Four radii are the first four that are given, with zeros behind them. -/
theorem CornerRadii.toList_ofList (radii : List Double) :
    (ofList radii).toList = (radii ++ List.replicate 4 Double.zero).take 4 := by
  match radii with
  | [] => rfl
  | [_] => rfl
  | [_, _] => rfl
  | [_, _, _] => rfl
  | _ :: _ :: _ :: _ :: _ => rfl

namespace Node

variable {n : Node}

/-! ### Changed nodes -/

section Map

variable {f : SourceNode → SourceNode} {g : Node → Node}

mutual

/-- Nodes that are changed and keep their corners are placed as before. -/
theorem place_map (horigin : ∀ source, (f source).origin = source.origin)
    (hnode : ∀ x y source, ofSource x y (f source) = g (ofSource x y source)) :
    ∀ (x y : Double) (t : Tree SourceNode), place x y (t.map f) = (place x y t).map g
  | x, y, .node source children => by
    rw [Tree.map, place, place, Tree.map, hnode, horigin,
      placeAll_mapAll horigin hnode _ _ children]

theorem placeAll_mapAll (horigin : ∀ source, (f source).origin = source.origin)
    (hnode : ∀ x y source, ofSource x y (f source) = g (ofSource x y source)) :
    ∀ (x y : Double) (ts : List (Tree SourceNode)),
      placeAll x y (Tree.mapAll f ts) = Tree.mapAll g (placeAll x y ts)
  | _, _, [] => rfl
  | x, y, t :: ts => by
    rw [Tree.mapAll, placeAll, placeAll, Tree.mapAll, place_map horigin hnode x y t,
      placeAll_mapAll horigin hnode x y ts]

end

end Map

/-! ### What does not depend on the place -/

section Preorder

variable {P : SourceNode → Prop} {Q : Node → Prop}

mutual

/-- What holds of a node from wherever it is seen holds of all placed nodes if it holds of all nodes
of the file. -/
theorem forall_preorder_place_iff (h : ∀ x y source, Q (ofSource x y source) ↔ P source) :
    ∀ (x y : Double) (t : Tree SourceNode),
      (∀ n ∈ (place x y t).preorder, Q n) ↔ ∀ source ∈ t.preorder, P source
  | x, y, .node source children => by
    rw [place, Tree.preorder, Tree.preorder, List.forall_mem_cons, List.forall_mem_cons, h,
      forall_preorderAll_placeAll_iff h _ _ children]

theorem forall_preorderAll_placeAll_iff (h : ∀ x y source, Q (ofSource x y source) ↔ P source) :
    ∀ (x y : Double) (ts : List (Tree SourceNode)),
      (∀ n ∈ Tree.preorderAll (placeAll x y ts), Q n) ↔ ∀ source ∈ Tree.preorderAll ts, P source
  | _, _, [] => iff_of_true (List.forall_mem_nil Q) (List.forall_mem_nil P)
  | x, y, t :: ts => by
    rw [placeAll, Tree.preorderAll, Tree.preorderAll, List.forall_mem_append,
      List.forall_mem_append, forall_preorder_place_iff h x y t,
      forall_preorderAll_placeAll_iff h x y ts]

end

end Preorder

theorem placeAll_eq_map (x y : Double) (ts : List (Tree SourceNode)) :
    placeAll x y ts = ts.map (place x y) := by
  induction ts with
  | nil => rfl
  | cons t ts ih => rw [placeAll, ih, List.map_cons]

theorem placeAll_append (x y : Double) (ts us : List (Tree SourceNode)) :
    placeAll x y (ts ++ us) = placeAll x y ts ++ placeAll x y us := by
  rw [placeAll_eq_map, placeAll_eq_map, placeAll_eq_map, List.map_append]

/-! ### Where placed nodes come from -/

mutual

/-- A placed node is a node of the file as seen from some point. -/
theorem exists_ofSource_of_mem_place : ∀ {t : Tree SourceNode} {x y : Double},
    n ∈ (place x y t).preorder → ∃ x y source, n = ofSource x y source
  | .node source children, x, y, h => by
    rw [place, Tree.preorder] at h
    rcases List.mem_cons.mp h with rfl | hbelow
    · exact ⟨x, y, source, rfl⟩
    · exact exists_ofSource_of_mem_placeAll hbelow

theorem exists_ofSource_of_mem_placeAll : ∀ {ts : List (Tree SourceNode)} {x y : Double},
    n ∈ Tree.preorderAll (placeAll x y ts) → ∃ x y source, n = ofSource x y source
  | [], x, y, h => by cases h
  | t :: ts, x, y, h => by
    rw [placeAll, Tree.preorderAll] at h
    rcases List.mem_append.mp h with hfirst | hrest
    · exact exists_ofSource_of_mem_place hfirst
    · exact exists_ofSource_of_mem_placeAll hrest

end

/-- A placed node of the kind that holds characters holds some. -/
theorem textContent?_isSome_of_mem_place {t : Tree SourceNode} {x y : Double}
    (h : n ∈ (place x y t).preorder) (htype : n.type = textKind) : n.textContent?.isSome := by
  obtain ⟨x, y, source, rfl⟩ := exists_ofSource_of_mem_place h
  have hsource : source.type = textKind := htype
  rw [textContent?, if_pos htype]
  show (textOf source).isSome = true
  rw [textOf, if_pos hsource]
  rfl

end Node

end FrameExport
