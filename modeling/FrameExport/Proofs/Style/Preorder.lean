import FrameExport.Style.Registry

/-!
# Collecting in preorder

`Node.descriptorsOf` lists the styles that the nodes of a forest ask for in preorder.  Collecting the
styles of a forest, which goes from each node to those below it, registers the styles of this list one
after the other, up to the first that is refused, and freezes the tables if none is
(`StyleRegistry.collect_eq`).
-/

namespace FrameExport

namespace Node

/-- The styles that a node asks for, in the order in which they are named. -/
def descriptors (node : Node) : List Descriptor :=
  node.textDescriptor?.toList ++ node.fillDescriptor?.toList ++ node.strokeDescriptor?.toList

/-- The styles that the nodes of a forest ask for, a node before those below it. -/
def descriptorsOf (forest : List (Tree Node)) : List Descriptor :=
  (Tree.preorderAll forest).flatMap descriptors

end Node

namespace StyleRegistry

/-- The registry after registering styles one after the other, up to the first that is refused. -/
def registerAll : List Descriptor → StyleRegistry → Collected
  | [], registry => (none, registry)
  | d :: ds, registry =>
    match registry.register d with
    | .ok (_, registry) => registerAll ds registry
    | .error error => (some error, registry)

theorem registerAll_append (ds es : List Descriptor) (registry : StyleRegistry) :
    registerAll (ds ++ es) registry = (registerAll ds registry).andThen (registerAll es) := by
  induction ds generalizing registry with
  | nil => rfl
  | cons d ds ih =>
    rw [List.cons_append, registerAll, registerAll]
    cases registry.register d with
    | ok result => exact ih result.2
    | error error => rfl

theorem registerOptional_eq (d? : Option Descriptor) :
    registerOptional d? = registerAll d?.toList := by
  cases d? with
  | none => rfl
  | some d =>
    funext registry
    rw [registerOptional, Option.toList_some, registerAll]
    cases registry.register d <;> rfl

theorem collectNode_eq (n : Node) (registry : StyleRegistry) :
    collectNode n registry = registerAll n.descriptors registry := by
  rw [collectNode, Node.descriptors, registerAll_append, registerAll_append, registerOptional_eq,
    registerOptional_eq, registerOptional_eq]

mutual

/-- A tree is collected like the list of what its nodes ask for. -/
theorem collectTree_eq : ∀ (t : Tree Node) (registry : StyleRegistry),
    collectTree t registry = registerAll (t.preorder.flatMap Node.descriptors) registry
  | .node n ts, registry => by
    rw [collectTree, collectNode_eq, Tree.preorder, List.flatMap_cons, registerAll_append,
      funext (collectTrees_eq ts)]

theorem collectTrees_eq : ∀ (ts : List (Tree Node)) (registry : StyleRegistry),
    collectTrees ts registry = registerAll ((Tree.preorderAll ts).flatMap Node.descriptors) registry
  | [], registry => rfl
  | t :: ts, registry => by
    rw [collectTrees, collectTree_eq t, Tree.preorderAll, List.flatMap_append, registerAll_append,
      funext (collectTrees_eq ts)]

end

/-- A forest is collected by registering what its nodes ask for in preorder. -/
theorem collect_eq (forest : List (Tree Node)) (registry : StyleRegistry) :
    collect forest registry
      = (registerAll (Node.descriptorsOf forest) registry).andThen
        fun registry => (none, registry.freeze) := by
  rw [collect, collectTrees_eq, Node.descriptorsOf]

end StyleRegistry

end FrameExport
