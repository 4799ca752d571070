import FrameExport.Double.Basic
import FrameExport.Fault

/-!
# JSON values

Values as data files hold them.  Integers and doubles are different kinds: an integer is exact and
unbounded, a double is one of `FrameExport.Double`.  An object is the list of its fields in the
order in which they were first set, so that a file can be written back as it was read.

`Json.isTruthy` tells the values that count as present from the empty ones, and `isFinite` those in
which every double is finite; `finite` puts null in place of the others, and `depth` is how far
values are nested.  `sorted` puts the fields of every object into the order of their keys, which
makes two values that differ only in the order of fields equal.
-/

namespace FrameExport

/-- A JSON value. -/
inductive Json where
  | null
  | bool (value : Bool)
  | int (value : Int)
  | double (value : Double)
  | str (value : String)
  | arr (items : List Json)
  | obj (fields : List (String × Json))
deriving Repr, Inhabited

/-- The fields of an object in order. -/
abbrev Fields := List (String × Json)

namespace Fields

/-- The value of a field; an absent field counts as null. -/
def get (fields : Fields) (key : String) : Json := (fields.lookup key).getD .null

/-- The fields with one more: a new key goes to the end, a known one keeps its place and takes the
new value. -/
def put (key : String) (value : Json) : Fields → Fields
  | [] => [(key, value)]
  | (k, v) :: rest => if k = key then (k, value) :: rest else (k, v) :: put key value rest

/-- A field placed before the first one with a greater key. -/
def insertSorted (field : String × Json) : Fields → Fields
  | [] => [field]
  | f :: rest => if f.1 < field.1 then f :: insertSorted field rest else field :: f :: rest

/-- The fields in the order of their keys, by code points. -/
def sort (fields : Fields) : Fields := fields.foldr insertSorted []

end Fields

namespace Json

/-- The kind of a value. -/
def kind : Json → ValueKind
  | .null => .null
  | .bool _ => .bool
  | .int _ => .int
  | .double _ => .double
  | .str _ => .text
  | .arr _ => .array
  | .obj _ => .object

/-- The fields of an object. -/
def fields? : Json → Option Fields
  | .obj fields => some fields
  | _ => none

/-- The fields of an object; any other value has none. -/
def fieldsOrEmpty (v : Json) : Fields := v.fields?.getD []

/-- The items of an array. -/
def items? : Json → Option (List Json)
  | .arr items => some items
  | _ => none

/-- Whether a value counts as present: everything but null, false, zero and the empty text, array
and object. -/
def isTruthy : Json → Bool
  | .null => false
  | .bool b => b
  | .int n => n != 0
  | .double x => !x.isZero
  | .str s => s != ""
  | .arr items => !items.isEmpty
  | .obj fields => !fields.isEmpty

/-- Whether a value is the given text. -/
def isText (v : Json) (text : String) : Bool :=
  match v with
  | .str s => s == text
  | _ => false

/-- Whether a value is the truth value false; nothing else, not even null or zero, is. -/
def isFalse : Json → Bool
  | .bool b => !b
  | _ => false

/-- The values that a walk through a value meets.  An absent or empty value is walked through like
an empty array, a text by its characters and an object by its keys; any other truth value or number
cannot be walked through. -/
def walk (v : Json) : Except Fault (List Json) :=
  if v.isTruthy then
    match v with
    | .arr items => .ok items
    | .str s => .ok (s.toList.map fun c => .str (String.singleton c))
    | .obj fields => .ok (fields.map fun f => .str f.1)
    | v => .error (.notWalked v.kind)
  else .ok []

mutual

/-- Whether every double in a value is finite. -/
def isFinite : Json → Bool
  | .double x => x.isFinite
  | .arr items => allFinite items
  | .obj fields => fieldsFinite fields
  | _ => true

/-- Whether every double in the items is finite. -/
def allFinite : List Json → Bool
  | [] => true
  | v :: rest => v.isFinite && allFinite rest

/-- Whether every double in the values of fields is finite. -/
def fieldsFinite : List (String × Json) → Bool
  | [] => true
  | (_, v) :: rest => v.isFinite && fieldsFinite rest

end

mutual

/-- The value with null in place of every double that is not finite. -/
def finite : Json → Json
  | .double x => if x.isFinite then .double x else .null
  | .arr items => .arr (finiteItems items)
  | .obj fields => .obj (finiteFields fields)
  | v => v

/-- `finite` for each item. -/
def finiteItems : List Json → List Json
  | [] => []
  | v :: rest => v.finite :: finiteItems rest

/-- `finite` for each value. -/
def finiteFields : List (String × Json) → List (String × Json)
  | [] => []
  | (k, v) :: rest => (k, v.finite) :: finiteFields rest

end

mutual

/-- How many values at most are one within the other; a value that holds no other counts itself. -/
def depth : Json → Nat
  | .arr items => itemsDepth items + 1
  | .obj fields => fieldsDepth fields + 1
  | _ => 1

/-- The greatest depth of the items. -/
def itemsDepth : List Json → Nat
  | [] => 0
  | v :: rest => max v.depth (itemsDepth rest)

/-- The greatest depth of the values of fields. -/
def fieldsDepth : List (String × Json) → Nat
  | [] => 0
  | (_, v) :: rest => max v.depth (fieldsDepth rest)

end

mutual

/-- The value with the fields of every object in the order of their keys. -/
def sorted : Json → Json
  | .arr items => .arr (sortedItems items)
  | .obj fields => .obj (Fields.sort (sortedFields fields))
  | v => v

/-- `sorted` for each item. -/
def sortedItems : List Json → List Json
  | [] => []
  | v :: rest => v.sorted :: sortedItems rest

/-- `sorted` for each value, the fields staying in place. -/
def sortedFields : List (String × Json) → List (String × Json)
  | [] => []
  | (k, v) :: rest => (k, v.sorted) :: sortedFields rest

end

end Json

end FrameExport
