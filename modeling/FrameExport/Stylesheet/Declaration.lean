/-!
# Declarations and rules of a style sheet

A declaration gives a property a value, and a rule gives declarations to what its selector selects.
Both are data; `Declaration.write` and `Rule.write` are their text.
-/

namespace FrameExport

/-- A property with its value. -/
structure Declaration where
  property : String
  value : String
deriving DecidableEq, Repr

namespace Declaration

/-- The declaration with the semicolon that ends it. -/
def write (d : Declaration) : List Char := d.property.toList ++ ':' :: (d.value.toList ++ [';'])

/-- Declarations in a row, as they stand in an attribute. -/
def writeAll (ds : List Declaration) : List Char := ds.flatMap write

end Declaration

/-- Declarations for what a selector selects. -/
structure Rule where
  selector : String
  declarations : List Declaration
deriving DecidableEq, Repr

/-- The rule with each declaration on a line of its own. -/
def Rule.write (rule : Rule) : List Char :=
  rule.selector.toList ++ " \x7b\n".toList
    ++ rule.declarations.flatMap (fun d => ' ' :: ' ' :: (d.write ++ ['\n'])) ++ ['}']

end FrameExport
