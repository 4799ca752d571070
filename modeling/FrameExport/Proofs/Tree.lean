import FrameExport.Tree

/-!
# Trees and their preorder

`Tree.map` applies a function to every value of a tree and keeps its shape; the preorder is mapped
with it (`preorder_map`).
-/

namespace FrameExport.Tree

variable {α β : Type}

theorem preorderAll_singleton (t : Tree α) : preorderAll [t] = t.preorder := by
  rw [preorderAll, preorderAll, List.append_nil]

/-- A value of one of several trees is one of their values. -/
theorem mem_preorderAll_of_mem {t : Tree α} {ts : List (Tree α)} (ht : t ∈ ts) {a : α}
    (ha : a ∈ t.preorder) : a ∈ preorderAll ts := by
  induction ts with
  | nil => cases ht
  | cons u ts ih =>
    rw [preorderAll, List.mem_append]
    rcases List.mem_cons.mp ht with rfl | hmem
    · exact Or.inl ha
    · exact Or.inr (ih hmem)

/-! ### Mapping -/

mutual

/-- The tree with a function applied to every value. -/
def map (f : α → β) : Tree α → Tree β
  | .node a ts => .node (f a) (mapAll f ts)

/-- Several trees with a function applied to every value. -/
def mapAll (f : α → β) : List (Tree α) → List (Tree β)
  | [] => []
  | t :: ts => map f t :: mapAll f ts

end

theorem mapAll_eq_map (f : α → β) (ts : List (Tree α)) : mapAll f ts = ts.map (map f) := by
  induction ts with
  | nil => rfl
  | cons t ts ih => rw [mapAll, ih, List.map_cons]

mutual

theorem map_id' : ∀ t : Tree α, map (fun a => a) t = t
  | .node a ts => by rw [map, mapAll_id' ts]

theorem mapAll_id' : ∀ ts : List (Tree α), mapAll (fun a => a) ts = ts
  | [] => rfl
  | t :: ts => by rw [mapAll, map_id' t, mapAll_id' ts]

end

mutual

theorem preorder_map (f : α → β) : ∀ t : Tree α, (map f t).preorder = t.preorder.map f
  | .node a ts => by rw [map, preorder, preorder, List.map_cons, preorderAll_mapAll f ts]

theorem preorderAll_mapAll (f : α → β) :
    ∀ ts : List (Tree α), preorderAll (mapAll f ts) = (preorderAll ts).map f
  | [] => rfl
  | t :: ts => by
    rw [mapAll, preorderAll, preorderAll, List.map_append, preorder_map f t,
      preorderAll_mapAll f ts]

end

end FrameExport.Tree
