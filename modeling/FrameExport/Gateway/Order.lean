import FrameExport.Json.Number

/-!
# Orders for exports

An `Order` is what a client asks the gateway to put into the queue: the key of a design file, the
directory for the artifacts if one is named, and whether the cache may be used.  `Order.ofJson`
reads it from the body of a request and tells every field that is wrong, in the order of the fields.
-/

namespace FrameExport

/-! ### Problems -/

/-- What is wrong with a request or a part of it. -/
inductive Problem.Kind where
  /-- It is not there. -/
  | missing
  /-- It is no JSON text. -/
  | malformed
  /-- It is no object with the fields of an order. -/
  | notAnOrder
  /-- It is no object. -/
  | notAnObject
  | notAText
  /-- It is a text with too few characters. -/
  | tooShort
  /-- It is a number or a text that is no truth value. -/
  | unknownTruth
  /-- It is nothing that could be a truth value. -/
  | notATruth
deriving DecidableEq, Repr

/-- The name of a kind of problem in a response. -/
def Problem.Kind.name : Problem.Kind → String
  | .missing => "missing"
  | .malformed => "json_invalid"
  | .notAnOrder => "model_attributes_type"
  | .notAnObject => "dict_type"
  | .notAText => "string_type"
  | .tooShort => "string_too_short"
  | .unknownTruth => "bool_parsing"
  | .notATruth => "bool_type"

/-- Where in the body of a request a problem is. -/
inductive Problem.Place where
  | body
  | field (name : String)
  /-- At a character of the body's text. -/
  | offset (n : Nat)
deriving DecidableEq, Repr

/-- A problem of a request, with the value that it is about. -/
structure Problem where
  kind : Problem.Kind
  place : Problem.Place
  input : Json
deriving Repr

namespace Problem

/-- The place of a problem as a response gives it. -/
def Place.toJson : Place → Json
  | .body => .arr [.str "body"]
  | .field name => .arr [.str "body", .str name]
  | .offset n => .arr [.str "body", .int n]

/-- A problem as a response gives it. -/
def toJson (problem : Problem) : Json :=
  .obj [("type", .str problem.kind.name), ("loc", problem.place.toJson), ("input", problem.input)]

end Problem

/-! ### Orders -/

/-- What a client asks to be exported. -/
structure Order where
  key : String
  directory : Option String
  useCache : Bool
deriving DecidableEq, Repr

namespace Order

/-- The texts for false, in lower case. -/
def falseTexts : List String := ["0", "off", "f", "false", "n", "no"]

/-- The texts for true, in lower case. -/
def trueTexts : List String := ["1", "on", "t", "true", "y", "yes"]

/-- The truth value that an integer stands for. -/
def truthOfInt (n : Int) : Except Problem.Kind Bool :=
  if n = 0 then .ok false else if n = 1 then .ok true else .error .unknownTruth

/-- One more than the greatest integer that could be a truth value: integers are taken as words of
64 bits with a sign. -/
def wordBound : Int := 0x8000000000000000

/-- The truth value that a value stands for: itself, zero and one as numbers, or a text for it in
any case.  An integer that is no word and a double that is no integer are no numbers here; nor is a
double at or beyond the ends of the words, even the lower end. -/
def readTruth : Json → Except Problem.Kind Bool
  | .bool b => .ok b
  | .int n =>
    if -wordBound ≤ n ∧ n < wordBound then truthOfInt n else .error .notATruth
  | .double x =>
    match x.integer? with
    | some n => if -wordBound < n ∧ n < wordBound then truthOfInt n else .error .notATruth
    | none => .error .notATruth
  | .str s =>
    let lower := s.map Char.toLower
    if falseTexts.contains lower then .ok false
    else if trueTexts.contains lower then .ok true
    else .error .unknownTruth
  | _ => .error .notATruth

/-- A key is a text that is not empty. -/
def readKey : Option Json → Except Problem.Kind String
  | none => .error .missing
  | some (.str key) => if key = "" then .error .tooShort else .ok key
  | some _ => .error .notAText

/-- A directory is a text or null. -/
def readDirectory : Json → Except Problem.Kind (Option String)
  | .null => .ok none
  | .str directory => .ok (some directory)
  | _ => .error .notAText

/-- The cache is used unless a value says otherwise. -/
def readUseCache : Option Json → Except Problem.Kind Bool
  | none => .ok true
  | some v => readTruth v

/-- The problem of a field, if there is one.  What is missing is missing in the whole. -/
def problemsOf {α : Type} (fields : Fields) (name : String) : Except Problem.Kind α → List Problem
  | .ok _ => []
  | .error .missing => [⟨.missing, .field name, .obj fields⟩]
  | .error kind => [⟨kind, .field name, fields.get name⟩]

/-- The order that fields describe. -/
def ofFields (fields : Fields) : Except (List Problem) Order :=
  let key := readKey (fields.lookup "fileKey")
  let directory := readDirectory (fields.get "outDir")
  let useCache := readUseCache (fields.lookup "useCache")
  match key, directory, useCache with
  | .ok key, .ok directory, .ok useCache => .ok ⟨key, directory, useCache⟩
  | _, _, _ =>
    .error (problemsOf fields "fileKey" key ++ problemsOf fields "outDir" directory
      ++ problemsOf fields "useCache" useCache)

/-- The order that the body of a request holds. -/
def ofJson (body : Json) : Except (List Problem) Order :=
  match body with
  | .obj fields => ofFields fields
  | v => .error [⟨.notAnOrder, .body, v⟩]

/-- The fields of the job that an order becomes. -/
def jobFields (order : Order) : Fields :=
  [("file_key", .str order.key),
    ("out_dir", match order.directory with
      | some directory => .str directory
      | none => .null),
    ("use_cache", .bool order.useCache)]

end Order

end FrameExport
