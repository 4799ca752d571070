/-!
# Faults of values

Paints, positions and typography reach this library as values that nobody has checked.  A `Fault`
says why such a value cannot be used where it stands: the kind of the fault, and a message that names
the kind of the value where this matters.
-/

namespace FrameExport

/-- The kinds of values. -/
inductive ValueKind where
  | null
  | bool
  | int
  | double
  | text
  | array
  | object
deriving DecidableEq, Repr

namespace ValueKind

/-- What messages call the values of a kind. -/
def name : ValueKind → String
  | .null => "NoneType"
  | .bool => "bool"
  | .int => "int"
  | .double => "float"
  | .text => "str"
  | .array => "list"
  | .object => "dict"

/-- Whether the values of a kind are put together from others in a row. -/
def isSequence : ValueKind → Bool
  | .text | .array => true
  | _ => false

end ValueKind

/-- What is wrong with a value: what it is, how large it is, of what kind it is, or what it lacks. -/
inductive FaultKind where
  | value
  | overflow
  | type
  | attribute
deriving DecidableEq, Repr

/-- Why a value cannot be used where it stands. -/
structure Fault where
  kind : FaultKind
  message : String
deriving DecidableEq, Repr

namespace Fault

/-! ### Numbers -/

/-- A NaN has no nearest integer. -/
def notANumber : Fault := ⟨.value, "cannot convert float NaN to integer"⟩

/-- An infinity has no nearest integer. -/
def infinite : Fault := ⟨.overflow, "cannot convert float infinity to integer"⟩

/-- An integer may lie beyond every double. -/
def tooLarge : Fault := ⟨.overflow, "int too large to convert to float"⟩

/-- A double is no number of times. -/
def notCounted : Fault := ⟨.type, "'float' object cannot be interpreted as an integer"⟩

/-! ### Kinds of values -/

/-- A number or truth value is no row of values. -/
def notWalked (kind : ValueKind) : Fault :=
  ⟨.type, "'" ++ kind.name ++ "' object is not iterable"⟩

/-- A value that is no number has nothing added to it. -/
def notAdded (kind : ValueKind) : Fault :=
  ⟨.type, if kind.isSequence then
      "can only concatenate " ++ kind.name ++ " (not \"float\") to " ++ kind.name
    else "unsupported operand type(s) for +: '" ++ kind.name ++ "' and 'float'"⟩

/-- A value that is no number is not multiplied; a row can be repeated, but not a part of it. -/
def notMultiplied (kind : ValueKind) : Fault :=
  ⟨.type, if kind.isSequence then "can't multiply sequence by non-int of type 'float'"
    else "unsupported operand type(s) for *: '" ++ kind.name ++ "' and 'int'"⟩

/-- A value that is no number is neither above nor below one. -/
def notCompared (kind : ValueKind) : Fault :=
  ⟨.type, "'>' not supported between instances of '" ++ kind.name ++ "' and 'int'"⟩

/-- Only a text names a path. -/
def notAPath (kind : ValueKind) : Fault :=
  ⟨.type, "expected str, bytes or os.PathLike object, not " ++ kind.name⟩

/-- A value has nothing of the given name. -/
def noAttribute (kind : ValueKind) (name : String) : Fault :=
  ⟨.attribute, "'" ++ kind.name ++ "' object has no attribute '" ++ name ++ "'"⟩

/-! ### Arguments -/

/-- An argument that a job must have is missing. -/
def missingArgument (name : String) : Fault :=
  ⟨.type, "export_figma_file() missing 1 required keyword-only argument: '" ++ name ++ "'"⟩

/-- A job has an argument that nothing asks for. -/
def unknownArgument (name : String) : Fault :=
  ⟨.type, "export_figma_file() got an unexpected keyword argument '" ++ name ++ "'"⟩

end Fault

end FrameExport
