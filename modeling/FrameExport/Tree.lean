/-!
# Ordered trees

A `Tree` is a value with a list of subtrees.  A design is a tree of nodes, and so is everything that
is made from it: the tree of its source, the tree of placed nodes and the tree of boxes on the page.

`Tree.preorder` lists the values, each before those below it and siblings from left to right; this
is the order in which styles are named.
-/

namespace FrameExport

/-- A value with a list of subtrees. -/
inductive Tree (α : Type) where
  | node (value : α) (children : List (Tree α))
deriving Repr

namespace Tree

variable {α : Type}

/-- The value at the root. -/
def value : Tree α → α
  | .node a _ => a

/-- The subtrees of the root. -/
def children : Tree α → List (Tree α)
  | .node _ ts => ts

/-- A value with no subtrees. -/
def leaf (a : α) : Tree α := .node a []

mutual

/-- The values of a tree, each before those below it. -/
def preorder : Tree α → List α
  | .node a ts => a :: preorderAll ts

/-- The values of several trees, one tree after the other. -/
def preorderAll : List (Tree α) → List α
  | [] => []
  | t :: ts => t.preorder ++ preorderAll ts

end

/-- The values of trees in a row are those of the first ones followed by those of the others. -/
theorem preorderAll_append (ts us : List (Tree α)) :
    preorderAll (ts ++ us) = preorderAll ts ++ preorderAll us := by
  induction ts with
  | nil => rfl
  | cons t ts ih => simp [preorderAll, ih]

end Tree

end FrameExport
