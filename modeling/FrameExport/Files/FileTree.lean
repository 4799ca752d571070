import FrameExport.Files.Path

/-!
# Trees of files

A `FileTree` holds directories and files by their location, which is the list of names that lead
there from the root.  There are no links, so a location is where it says, and different paths lead
to one file only by points that lead up.

A path is followed name by name, and every directory on the way must be there.  The operations fail
as those of a file system do: what is missing, what is there already, and what is of the wrong kind
are different errors.  An operation that fails changes nothing, except that `makeDirectories` leaves
the directories that it has made.
-/

namespace FrameExport

/-- The names that lead from the root to a directory or file. -/
abbrev Location := List String

/-- What lies at a location. -/
inductive Entry where
  | directory
  | file (content : ByteArray)

/-- Why an operation on files fails. -/
inductive FileError where
  /-- A directory on the way, or the file itself, is missing. -/
  | notFound
  /-- Something is there already. -/
  | alreadyExists
  /-- A file stands where a directory is needed. -/
  | notADirectory
  /-- A directory stands where a file is needed. -/
  | isADirectory
  /-- A name or the whole path is too long. -/
  | nameTooLong
  /-- The path has a NUL in it. -/
  | badName
deriving DecidableEq, Repr

/-- Directories and files, with the directory that paths start from. -/
structure FileTree where
  here : Location
  entries : List (Location × Entry)

namespace FileTree

/-- The tree with nothing in the working directory. -/
def empty : FileTree := ⟨["work"], [(["work"], .directory)]⟩

/-- What lies at a location; the root is always a directory. -/
def get? (tree : FileTree) (location : Location) : Option Entry :=
  if location = [] then some .directory else tree.entries.lookup location

/-- The tree with an entry at a location, in place of what lay there. -/
def set (tree : FileTree) (location : Location) (entry : Entry) : FileTree :=
  { tree with entries := (location, entry) :: tree.entries.filter fun e => e.1 != location }

/-! ### Following paths -/

/-- The most bytes that a name may have. -/
def maxNameBytes : Nat := 255

/-- The number of bytes from which on a path is too long. -/
def pathBytesLimit : Nat := 4096

/-- Where one name leads from a directory. -/
def step (start : Location) (name : String) : Except FileError Location :=
  if name = ".." then .ok start.dropLast
  else if maxNameBytes < name.utf8ByteSize then .error .nameTooLong
  else .ok (start ++ [name])

/-- Where names lead from a directory; all but the last must lead to directories. -/
def follow (tree : FileTree) (start : Location) : List String → Except FileError Location
  | [] => .ok start
  | [name] => step start name
  | name :: next :: rest =>
    match step start name with
    | .error e => .error e
    | .ok location =>
      match tree.get? location with
      | none => .error .notFound
      | some (.file _) => .error .notADirectory
      | some .directory => follow tree location (next :: rest)

/-- The location of a path. -/
def locate (tree : FileTree) (path : Path) : Except FileError Location :=
  if path.text.toList.contains (Char.ofNat 0) then .error .badName
  else if pathBytesLimit ≤ path.text.utf8ByteSize then .error .nameTooLong
  else tree.follow (if path.slashes = 0 then tree.here else []) path.names

/-- What lies at a path, if anything does. -/
def find (tree : FileTree) (path : Path) : Except FileError (Option Entry) :=
  match tree.locate path with
  | .ok location => .ok (tree.get? location)
  | .error .notFound => .ok none
  | .error .notADirectory => .ok none
  | .error e => .error e

/-! ### Files -/

/-- The content of a file. -/
def read (tree : FileTree) (path : Path) : Except FileError ByteArray := do
  match tree.get? (← tree.locate path) with
  | none => throw .notFound
  | some .directory => throw .isADirectory
  | some (.file content) => return content

/-- The tree with a file written, whether it was there or not. -/
def write (tree : FileTree) (path : Path) (content : ByteArray) : Except FileError FileTree := do
  let location ← tree.locate path
  match tree.get? location with
  | some .directory => throw .isADirectory
  | _ => return tree.set location (.file content)

/-! ### Directories -/

/-- The tree with a new directory. -/
def makeDirectory (tree : FileTree) (path : Path) : Except FileError FileTree := do
  let location ← tree.locate path
  match tree.get? location with
  | some _ => throw .alreadyExists
  | none => return tree.set location .directory

/-- An error in making a directory does not matter if there is one. -/
def unlessDirectory (tree : FileTree) (path : Path) (error : FileError) : Except FileError Unit :=
  match error with
  | .badName => .error error
  | _ =>
    match tree.find path with
    | .ok (some .directory) => .ok ()
    | .ok _ => .error error
    | .error e => .error e

/-- `makeDirectories` for a path that ends in the given names, the last one first. -/
def makeNamed (slashes : Nat) (tree : FileTree) : List String → FileTree × Except FileError Unit
  | [] => (tree, .ok ())
  | name :: above =>
    let path : Path := ⟨slashes, (name :: above).reverse⟩
    match tree.makeDirectory path with
    | .ok tree => (tree, .ok ())
    | .error .notFound =>
      match makeNamed slashes tree above with
      | (tree, .error e) => (tree, .error e)
      | (tree, .ok ()) =>
        match tree.makeDirectory path with
        | .ok tree => (tree, .ok ())
        | .error .notFound => (tree, .error .notFound)
        | .error e => (tree, tree.unlessDirectory path e)
    | .error e => (tree, tree.unlessDirectory path e)

/-- The tree with a directory and all those above it that were missing, and whether it could be
made.  A directory that is there already is no error. -/
def makeDirectories (tree : FileTree) (path : Path) : FileTree × Except FileError Unit :=
  makeNamed path.slashes tree path.names.reverse

/-! ### Listing -/

/-- What lies below the working directory, with paths from there in the order of code points. -/
def listing (tree : FileTree) : List (String × Entry) :=
  let below := tree.entries.filterMap fun (location, entry) =>
    if tree.here.isPrefixOf location && tree.here.length < location.length then
      some ("/".intercalate (location.drop tree.here.length), entry)
    else none
  below.mergeSort fun a b => a.1 ≤ b.1

end FileTree

end FrameExport
