/-!
# Paths

A path is a list of names, from the root or from the working directory.  `Path.ofString` reads a
path as it is written: slashes divide names, and empty names and single points say nothing.  Two
points lead up and are kept, because where they lead depends on the directories that there are.

`Path.text` writes a path, the one without names as a single point.
-/

namespace FrameExport

/-- A path as it is written. -/
structure Path where
  /-- How many slashes the path begins with: none for a path from the working directory, one for a
  path from the root, and two where exactly two are written. -/
  slashes : Nat
  names : List String
deriving DecidableEq, Repr

namespace Path

/-- The parts of a text between slashes. -/
def splitAtSlashes : List Char → List (List Char)
  | [] => [[]]
  | c :: cs =>
    if c = '/' then [] :: splitAtSlashes cs
    else
      match splitAtSlashes cs with
      | [] => [[c]]
      | part :: parts => (c :: part) :: parts

/-- The names among the parts of a path. -/
def namesOf (cs : List Char) : List String :=
  (splitAtSlashes cs).filterMap fun part =>
    if part.isEmpty || part == ['.'] then none else some (String.ofList part)

/-- The path that a text says. -/
def ofString (s : String) : Path :=
  let leading := (s.toList.takeWhile (· == '/')).length
  ⟨if leading = 2 then 2 else min leading 1, namesOf s.toList⟩

/-- The path as it is written. -/
def text (path : Path) : String :=
  if path.slashes = 0 && path.names.isEmpty then "."
  else String.ofList (List.replicate path.slashes '/') ++ "/".intercalate path.names

/-- The path of a name in a directory. -/
def child (path : Path) (name : String) : Path := { path with names := path.names ++ [name] }

/-- The path of the directory that the last name lies in. -/
def parent (path : Path) : Path := { path with names := path.names.dropLast }

end Path

end FrameExport
