import FrameExport.Style.Table

/-!
# The registry of styles

A `StyleRegistry` is one table for each kind of style.  `StyleRegistry.collect` goes through a forest,
registers what each node asks for before it goes to the nodes below it, and then freezes the tables;
`StyleRegistry.ofForest` begins with empty tables, and so each style gets the number of its first
appearance.

`StyleRegistry.classOf?` looks up the class of a style.
-/

namespace FrameExport

/-- The tables of the three kinds of styles. -/
structure StyleRegistry where
  texts : StyleTable
  fills : StyleTable
  strokes : StyleTable
deriving Repr

namespace StyleRegistry

/-- The registry before anything is registered. -/
def empty : StyleRegistry := ⟨.empty .text, .empty .fill, .empty .stroke⟩

/-- The table of a kind. -/
def table (registry : StyleRegistry) : StyleKind → StyleTable
  | .text => registry.texts
  | .fill => registry.fills
  | .stroke => registry.strokes

/-- The registry with another table in place of the one of a kind. -/
def setTable (registry : StyleRegistry) (kind : StyleKind) (table : StyleTable) : StyleRegistry :=
  match kind with
  | .text => { registry with texts := table }
  | .fill => { registry with fills := table }
  | .stroke => { registry with strokes := table }

/-- The class of a style, and the registry that has it. -/
def register (registry : StyleRegistry) (d : Descriptor) :
    Except FrozenTable (String × StyleRegistry) :=
  ((registry.table d.kind).register d.key d.payload d.weight).map fun (className, table) =>
    (className, registry.setTable d.kind table)

/-- The registry that takes no new styles of a kind. -/
def freezeTable (registry : StyleRegistry) (kind : StyleKind) : StyleRegistry :=
  registry.setTable kind (registry.table kind).freeze

/-- The registry that takes no new styles. -/
def freeze (registry : StyleRegistry) : StyleRegistry :=
  ⟨registry.texts.freeze, registry.fills.freeze, registry.strokes.freeze⟩

/-! ### Collecting -/

/-- What registering styles comes to: the refusal, if a style was refused, and the registry then. -/
abbrev Collected := Option FrozenTable × StyleRegistry

/-- More styles registered, unless one was refused. -/
def Collected.andThen (collected : Collected) (next : StyleRegistry → Collected) : Collected :=
  match collected with
  | (none, registry) => next registry
  | (some error, registry) => (some error, registry)

/-- The registry after registering a style, if there is one. -/
def registerOptional (d? : Option Descriptor) (registry : StyleRegistry) : Collected :=
  match d? with
  | none => (none, registry)
  | some d =>
    match registry.register d with
    | .ok (_, registry) => (none, registry)
    | .error error => (some error, registry)

/-- The registry after registering what a node asks for: its typography, then its fill, then its
stroke. -/
def collectNode (n : Node) (registry : StyleRegistry) : Collected :=
  ((registerOptional n.textDescriptor? registry).andThen
    (registerOptional n.fillDescriptor?)).andThen (registerOptional n.strokeDescriptor?)

mutual

/-- The registry after registering what the nodes of a tree ask for, a node before those below it. -/
def collectTree : Tree Node → StyleRegistry → Collected
  | .node n ts, registry => (collectNode n registry).andThen (collectTrees ts)

/-- The registry after registering what the nodes of several trees ask for. -/
def collectTrees : List (Tree Node) → StyleRegistry → Collected
  | [], registry => (none, registry)
  | t :: ts, registry => (collectTree t registry).andThen (collectTrees ts)

end

/-- The registry after registering what the nodes of a forest ask for.  It is frozen then, unless a
style was refused. -/
def collect (forest : List (Tree Node)) (registry : StyleRegistry) : Collected :=
  (collectTrees forest registry).andThen fun registry => (none, registry.freeze)

/-- The styles of a forest. -/
def ofForest (forest : List (Tree Node)) : StyleRegistry := (collect forest empty).2

/-! ### Looking up -/

/-- The class of a style, if it is registered. -/
def classOf? (registry : StyleRegistry) (d : Descriptor) : Option String :=
  ((registry.table d.kind).get? d.key).map StyleEntry.className

/-- All entries: text styles, then fills, then strokes. -/
def entries (registry : StyleRegistry) : List StyleEntry :=
  registry.texts.entries ++ registry.fills.entries ++ registry.strokes.entries

end StyleRegistry

/-- How many styles of each kind there are. -/
structure StyleSummary where
  texts : Nat
  fills : Nat
  strokes : Nat
deriving DecidableEq, Repr

/-- The sizes of the three tables. -/
def StyleRegistry.summary (registry : StyleRegistry) : StyleSummary :=
  ⟨registry.texts.entries.length, registry.fills.entries.length, registry.strokes.entries.length⟩

end FrameExport
