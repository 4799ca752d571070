import FrameExport.Style.Descriptor

/-!
# Tables of styles

A `StyleTable` holds the styles of one kind in the order in which they were registered.  A style
that is there already keeps its class, whatever is registered again; a new one takes the next
number.  A frozen table still answers for the styles that it has, and refuses new ones.
-/

namespace FrameExport

/-- A registered style. -/
structure StyleEntry where
  key : String
  className : String
  payload : Json
  weight : Json
deriving Repr

/-- The registered styles of one kind. -/
structure StyleTable where
  kind : StyleKind
  entries : List StyleEntry
  frozen : Bool
deriving Repr

/-- A new style came to a frozen table of this kind. -/
structure FrozenTable where
  kind : StyleKind
deriving DecidableEq, Repr

/-- The text that tells which table was frozen. -/
def FrozenTable.message (error : FrozenTable) : String :=
  "Stilregistret är fryst; kan inte registrera ny " ++ error.kind.letters ++ "-stil."

namespace StyleTable

/-- The table of a kind before anything is registered. -/
def empty (kind : StyleKind) : StyleTable := ⟨kind, [], false⟩

/-- The entry of a key. -/
def get? (table : StyleTable) (key : String) : Option StyleEntry :=
  table.entries.find? fun entry => entry.key == key

/-- The table with one more entry, whose class takes the next number. -/
def push (table : StyleTable) (key : String) (payload weight : Json) : StyleTable :=
  let className := table.kind.className table.entries.length
  { table with entries := table.entries ++ [⟨key, className, payload, weight⟩] }

/-- The class of a style, and the table in which it is registered. -/
def register (table : StyleTable) (key : String) (payload weight : Json) :
    Except FrozenTable (String × StyleTable) :=
  match table.get? key with
  | some entry => .ok (entry.className, table)
  | none =>
    if table.frozen then .error ⟨table.kind⟩
    else .ok (table.kind.className table.entries.length, table.push key payload weight)

/-- The table that takes no new styles. -/
def freeze (table : StyleTable) : StyleTable := { table with frozen := true }

@[simp] theorem entries_push (table : StyleTable) (key : String) (payload weight : Json) :
    (table.push key payload weight).entries
      = table.entries ++ [⟨key, table.kind.className table.entries.length, payload, weight⟩] := rfl

@[simp] theorem entries_freeze (table : StyleTable) : table.freeze.entries = table.entries := rfl

end StyleTable

end FrameExport
