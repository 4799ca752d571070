import FrameExport.Files.FileTree
import FrameExport.Proofs.Fallible

/-!
# What lies in a tree of files

Setting an entry changes what lies at its location and nothing else (`get?_set`).

Where a path leads depends on the directories alone (`locate_of_directories`).  A tree grows
(`FileTree.Grows`) when directories are added to it in places where nothing was.  A path that leads
somewhere leads there in a grown tree too, and one that leads somewhere in the grown tree only lacked
a directory before (`Grows.locate_cases`).  When a file is then written, the tree differs from the
first one in that file only (`FileTree.DiffersOnlyAt`).

Two trees may agree on what a path stands for (`FileTree.SameAt`) though it leads somewhere in one of
them only, since a missing directory and an empty one look alike.  In a tree that is closed whatever
is there lies in a directory.  Paths that lead down only then lead to nothing where a directory is
missing on the way (`IsClosed.get?_of_follow`).
-/

namespace FrameExport

namespace FileTree

variable {tree tree' tree'' : FileTree} {start location other : Location} {names : List String}
  {name : String} {path : Path} {error : FileError}

/-! ### Entries -/

theorem lookup_filter_ne (entries : List (Location × Entry)) (location other : Location) :
    (entries.filter fun e => e.1 != location).lookup other
      = if other = location then none else entries.lookup other := by
  induction entries with
  | nil => simp
  | cons e entries ih =>
    obtain ⟨place, entry⟩ := e
    by_cases hplace : place = location
    · subst hplace
      rw [List.filter_cons_of_neg (by simp), ih]
      split
      case isTrue => rfl
      case isFalse hother => rw [List.lookup_cons, beq_eq_false_iff_ne.mpr hother]
    · rw [List.filter_cons_of_pos (by simpa using hplace), List.lookup_cons, List.lookup_cons, ih]
      by_cases hother : other = place
      · subst hother
        simp only [beq_self_eq_true, if_neg hplace]
      · rw [beq_eq_false_iff_ne.mpr hother]

/-- An entry is set where it is set, and nowhere else. -/
theorem get?_set (tree : FileTree) (hlocation : location ≠ []) (entry : Entry) (other : Location) :
    (tree.set location entry).get? other
      = if other = location then some entry else tree.get? other := by
  unfold get? set
  by_cases hother : other = location
  · subst hother
    rw [if_neg hlocation, if_pos rfl, List.lookup_cons, beq_self_eq_true]
  · rw [if_neg hother, List.lookup_cons, beq_eq_false_iff_ne.mpr hother, lookup_filter_ne,
      if_neg hother]

theorem ne_nil_of_get?_ne (h : tree.get? location ≠ some .directory) : location ≠ [] := by
  rintro rfl
  exact h rfl

/-! ### Following paths -/

/-- Where a path starts. -/
def startOf (tree : FileTree) (path : Path) : Location :=
  if path.slashes = 0 then tree.here else []

theorem startOf_eq (hhere : tree'.here = tree.here) (path : Path) :
    tree'.startOf path = tree.startOf path := by
  rw [startOf, hhere, startOf]

theorem locate_eq_follow (hnul : Char.ofNat 0 ∉ path.text.toList)
    (hshort : path.text.utf8ByteSize < pathBytesLimit) :
    tree.locate path = tree.follow (tree.startOf path) path.names := by
  rw [locate, if_neg (by simpa using hnul), if_neg (Nat.not_le.mpr hshort), startOf]

theorem locate_eq_ok_iff : tree.locate path = .ok location ↔
    Char.ofNat 0 ∉ path.text.toList ∧ path.text.utf8ByteSize < pathBytesLimit ∧
      tree.follow (tree.startOf path) path.names = .ok location := by
  unfold locate
  split
  case isTrue hnul => simpa using fun h => absurd hnul (by simpa using h)
  case isFalse hnul =>
    split
    case isTrue hlong => simp [Nat.not_lt.mpr hlong]
    case isFalse hlong =>
      rw [List.contains_iff_mem] at hnul
      simp [hnul, Nat.lt_of_not_le hlong, startOf]

/-- A name is looked up behind others if they lead to a directory. -/
theorem follow_concat (tree : FileTree) (start : Location) (hnames : names ≠ []) (name : String) :
    tree.follow start (names ++ [name])
      = match tree.follow start names with
        | .error e => .error e
        | .ok location =>
          match tree.get? location with
          | none => .error .notFound
          | some (.file _) => .error .notADirectory
          | some .directory => step location name := by
  induction names generalizing start with
  | nil => exact absurd rfl hnames
  | cons first names ih =>
    cases names with
    | nil => rfl
    | cons second names =>
      have hrest := fun start => ih start (List.cons_ne_nil second names)
      simp only [List.cons_append, follow] at hrest ⊢
      cases step start first with
      | error e => rfl
      | ok location =>
        dsimp only
        cases tree.get? location with
        | none => rfl
        | some entry =>
          cases entry with
          | file content => rfl
          | directory => exact hrest location

/-- Several names lead somewhere if the first leads to a directory from which the others do. -/
theorem follow_eq_ok_iff {next : String} :
    tree.follow start (name :: next :: names) = .ok location ↔
      ∃ between, step start name = .ok between ∧ tree.get? between = some .directory ∧
        tree.follow between (next :: names) = .ok location := by
  rw [follow]
  cases step start name with
  | error e => simp
  | ok between =>
    dsimp only
    cases hget : tree.get? between with
    | none => simp [hget]
    | some entry => cases entry <;> simp [hget]

/-- Where names lead depends on the directories on the way. -/
theorem follow_of_directories
    (h : ∀ location, tree.get? location = some .directory → tree'.get? location = some .directory) :
    ∀ {names : List String} {start : Location},
      tree.follow start names = .ok location → tree'.follow start names = .ok location
  | [], _, hfollow => hfollow
  | [_], _, hfollow => hfollow
  | _ :: _ :: _, _, hfollow => by
    obtain ⟨between, hstep, hdirectory, hrest⟩ := follow_eq_ok_iff.mp hfollow
    exact follow_eq_ok_iff.mpr
      ⟨between, hstep, h between hdirectory, follow_of_directories h hrest⟩

/-- Where a path leads depends on the directories on the way, and on where paths start. -/
theorem locate_of_directories
    (h : ∀ location, tree.get? location = some .directory → tree'.get? location = some .directory)
    (hhere : tree'.here = tree.here) (hlocate : tree.locate path = .ok location) :
    tree'.locate path = .ok location := by
  rw [locate_eq_ok_iff] at hlocate ⊢
  obtain ⟨hnul, hshort, hfollow⟩ := hlocate
  rw [startOf_eq hhere]
  exact ⟨hnul, hshort, follow_of_directories h hfollow⟩

/-! ### Files -/

theorem find_of_locate (h : tree.locate path = .ok location) :
    tree.find path = .ok (tree.get? location) := by
  rw [find, h]

theorem read_eq_ok_iff {content : ByteArray} : tree.read path = .ok content ↔
    ∃ location, tree.locate path = .ok location ∧ tree.get? location = some (.file content) := by
  rw [read, bind_eq_ok_iff]
  refine exists_congr fun location => and_congr_right fun _ => ?_
  cases tree.get? location with
  | none => exact iff_of_false (by rintro ⟨⟩) (by simp)
  | some entry =>
    cases entry with
    | directory => exact iff_of_false (by rintro ⟨⟩) (by simp)
    | file stored => simp [pure, Except.pure]

theorem read_of_get?_eq_none (h : tree.locate path = .ok location)
    (hnone : tree.get? location = none) : tree.read path = .error .notFound := by
  refine bind_eq_error_iff.mpr (Or.inr ⟨location, h, ?_⟩)
  rw [hnone]
  rfl

/-- A file is written wherever there is no directory. -/
theorem write_eq_ok_iff {content : ByteArray} : tree.write path content = .ok tree' ↔
    ∃ location, tree.locate path = .ok location ∧ tree.get? location ≠ some .directory ∧
      tree' = tree.set location (.file content) := by
  rw [write, bind_eq_ok_iff]
  refine exists_congr fun location => and_congr_right fun _ => ?_
  cases tree.get? location with
  | none => simp [pure, Except.pure, eq_comm]
  | some entry =>
    cases entry with
    | directory => exact iff_of_false (by rintro ⟨⟩) (by simp)
    | file stored => simp [pure, Except.pure, eq_comm]

/-- A file that can be located is not written where there is a directory. -/
theorem write_eq_error_iff {content : ByteArray} : tree.write path content = .error error ↔
    tree.locate path = .error error
      ∨ error = .isADirectory ∧ ∃ location, tree.locate path = .ok location
        ∧ tree.get? location = some .directory := by
  rw [write, bind_eq_error_iff]
  refine or_congr_right ?_
  constructor
  · rintro ⟨location, hlocate, herror⟩
    cases hget : tree.get? location with
    | none => simp [hget, pure, Except.pure] at herror
    | some entry =>
      cases entry with
      | file stored => simp [hget, pure, Except.pure] at herror
      | directory =>
        simp only [hget] at herror
        exact ⟨(Except.error.inj herror).symm, location, hlocate, hget⟩
  · rintro ⟨rfl, location, hlocate, hget⟩
    refine ⟨location, hlocate, ?_⟩
    simp only [hget]
    rfl

/-- Whether a file can be written does not depend on what is written. -/
theorem write_error_of_write_error {content : ByteArray} (h : tree.write path content = .error error)
    (content' : ByteArray) : tree.write path content' = .error error :=
  write_eq_error_iff.mpr (write_eq_error_iff.mp h)

/-- Setting a file where there is no directory leaves every directory in place. -/
theorem get?_set_file (hfree : tree.get? location ≠ some .directory) (content : ByteArray)
    (hother : tree.get? other = some .directory) :
    (tree.set location (.file content)).get? other = some .directory := by
  rw [get?_set tree (ne_nil_of_get?_ne hfree), if_neg, hother]
  rintro rfl
  exact hfree hother

/-- Of two entries set in one place the second one stays. -/
theorem set_set (tree : FileTree) (location : Location) (entry entry' : Entry) :
    (tree.set location entry).set location entry' = tree.set location entry' := by
  simp only [set, List.filter_cons, bne_self_eq_false, Bool.false_eq_true, if_false, List.filter_filter,
    Bool.and_self]

/-- A file that has just been written is written anew as if it had not been. -/
theorem write_write {content : ByteArray} (h : tree.write path content = .ok tree')
    (content' : ByteArray) : tree'.write path content' = tree.write path content' := by
  obtain ⟨location, hlocate, hfree, rfl⟩ := write_eq_ok_iff.mp h
  have hwrite : tree.write path content' = .ok (tree.set location (.file content')) :=
    write_eq_ok_iff.mpr ⟨location, hlocate, hfree, rfl⟩
  rw [hwrite]
  refine write_eq_ok_iff.mpr ⟨location, ?_, ?_, (set_set tree location _ _).symm⟩
  · exact locate_of_directories (fun _ => get?_set_file hfree content) rfl hlocate
  · rw [get?_set tree (ne_nil_of_get?_ne hfree), if_pos rfl]
    simp

/-- What is written is read again. -/
theorem read_of_write {content : ByteArray} (h : tree.write path content = .ok tree') :
    tree'.read path = .ok content := by
  obtain ⟨location, hlocate, hfree, rfl⟩ := write_eq_ok_iff.mp h
  refine read_eq_ok_iff.mpr ⟨location, ?_, ?_⟩
  · exact locate_of_directories (fun _ => get?_set_file hfree content) rfl hlocate
  · rw [get?_set tree (ne_nil_of_get?_ne hfree), if_pos rfl]

/-- A write does not change what is read at another location. -/
theorem read_of_write_elsewhere {elsewhere : Path} {content stored : ByteArray}
    (h : tree.write path content = .ok tree') (hread : tree.read elsewhere = .ok stored)
    (hne : tree.locate path ≠ tree.locate elsewhere) : tree'.read elsewhere = .ok stored := by
  obtain ⟨location, hlocate, hfree, rfl⟩ := write_eq_ok_iff.mp h
  obtain ⟨other, hother, hget⟩ := read_eq_ok_iff.mp hread
  refine read_eq_ok_iff.mpr ⟨other, ?_, ?_⟩
  · exact locate_of_directories (fun _ => get?_set_file hfree content) rfl hother
  · rw [get?_set tree (ne_nil_of_get?_ne hfree), if_neg, hget]
    rintro rfl
    exact hne (hlocate.trans hother.symm)

/-! ### What a path stands for -/

/-- The path stands for the same in two trees. -/
structure SameAt (tree tree' : FileTree) (path : Path) : Prop where
  find_eq : tree'.find path = tree.find path
  read_eq : tree'.read path = tree.read path

namespace SameAt

theorem of_locate_error (h : tree.locate path = .error error)
    (h' : tree'.locate path = .error error) : SameAt tree tree' path where
  find_eq := by
    rw [find, find, h, h']
    cases error <;> rfl
  read_eq := by
    rw [read, read, h, h']
    rfl

theorem of_locate_ok (h : tree.locate path = .ok location) (h' : tree'.locate path = .ok location)
    (hget : tree'.get? location = tree.get? location) : SameAt tree tree' path where
  find_eq := by rw [find_of_locate h, find_of_locate h', hget]
  read_eq := by
    rw [read, read, h, h']
    simp only [bind, Except.bind]
    rw [hget]

/-- It makes no difference whether a directory on the way is missing or there is nothing in it. -/
theorem of_missing (h : tree.locate path = .error .notFound) (h' : tree'.locate path = .ok location)
    (hnone : tree'.get? location = none) : SameAt tree tree' path where
  find_eq := by rw [find_of_locate h', hnone, find, h]
  read_eq := by
    rw [read_of_get?_eq_none h' hnone, read, h]
    rfl

end SameAt

/-! ### Trees that grow -/

/-- The second tree has what the first one has, and directories where the first has nothing. -/
structure Grows (tree tree' : FileTree) : Prop where
  here_eq : tree'.here = tree.here
  get?_eq : ∀ location, tree'.get? location = tree.get? location ∨
    (tree.get? location = none ∧ tree'.get? location = some .directory)

namespace Grows

theorem refl (tree : FileTree) : Grows tree tree := ⟨rfl, fun _ => Or.inl rfl⟩

theorem trans (h : Grows tree tree') (h' : Grows tree' tree'') : Grows tree tree'' := by
  refine ⟨h'.here_eq.trans h.here_eq, fun location => ?_⟩
  rcases h'.get?_eq location with hsame | ⟨hnone, hnew⟩
  · rw [hsame]
    exact h.get?_eq location
  · rcases h.get?_eq location with hsame | ⟨-, hnew'⟩
    · exact Or.inr ⟨hsame ▸ hnone, hnew⟩
    · rw [hnew'] at hnone
      cases hnone

/-- What lies in the first tree lies in the grown one. -/
theorem get?_eq_some {entry : Entry} (h : Grows tree tree') (hentry : tree.get? location = some entry) :
    tree'.get? location = some entry := by
  rcases h.get?_eq location with hsame | ⟨hnone, -⟩
  · rw [hsame, hentry]
  · rw [hentry] at hnone
    cases hnone

theorem directory (h : Grows tree tree') (hdirectory : tree.get? location = some .directory) :
    tree'.get? location = some .directory := h.get?_eq_some hdirectory

/-- What is no directory in the grown tree was there before. -/
theorem get?_of_ne (h : Grows tree tree') (hne : tree'.get? location ≠ some .directory) :
    tree.get? location = tree'.get? location := by
  rcases h.get?_eq location with hsame | ⟨-, hnew⟩
  · exact hsame.symm
  · exact absurd hnew hne

theorem follow_cases (h : Grows tree tree') :
    ∀ {names : List String} {start : Location}, tree'.follow start names = .ok location →
      tree.follow start names = .ok location ∨ tree.follow start names = .error .notFound
  | [], _, hfollow => Or.inl hfollow
  | [_], _, hfollow => Or.inl hfollow
  | _ :: _ :: _, _, hfollow => by
    obtain ⟨between, hstep, hdirectory, hrest⟩ := follow_eq_ok_iff.mp hfollow
    rw [follow, hstep]
    dsimp only
    rcases h.get?_eq between with hsame | ⟨hnone, -⟩
    · rw [← hsame, hdirectory]
      exact h.follow_cases hrest
    · rw [hnone]
      exact Or.inr rfl

/-- A path that leads somewhere in the grown tree did so before, or lacked a directory. -/
theorem locate_cases (h : Grows tree tree') (hlocate : tree'.locate path = .ok location) :
    tree.locate path = .ok location ∨ tree.locate path = .error .notFound := by
  obtain ⟨hnul, hshort, hfollow⟩ := locate_eq_ok_iff.mp hlocate
  rw [startOf_eq h.here_eq] at hfollow
  rw [locate_eq_follow hnul hshort]
  exact h.follow_cases hfollow

end Grows

/-! ### Trees that differ in one file -/

/-- The path is that of a file with the content in the second tree.  Elsewhere the second tree has
what the first one has, and directories where the first has nothing. -/
def DiffersOnlyAt (tree tree' : FileTree) (path : Path) (content : ByteArray) : Prop :=
  ∃ location, tree'.locate path = .ok location ∧ tree'.get? location = some (.file content) ∧
    ∀ other ≠ location, tree'.get? other = tree.get? other ∨
      (tree.get? other = none ∧ tree'.get? other = some .directory)

theorem Grows.differsOnlyAt_of_write {content : ByteArray} (h : Grows tree tree')
    (hwrite : tree'.write path content = .ok tree'') : DiffersOnlyAt tree tree'' path content := by
  obtain ⟨location, hlocate, hfree, rfl⟩ := write_eq_ok_iff.mp hwrite
  have hget := get?_set tree' (ne_nil_of_get?_ne hfree) (.file content)
  refine ⟨location, ?_, ?_, fun other hother => ?_⟩
  · exact locate_of_directories (fun _ => get?_set_file hfree content) rfl hlocate
  · rw [hget, if_pos rfl]
  · rw [hget, if_neg hother]
    exact h.get?_eq other

/-! ### Paths that lead down only -/

/-- Whatever lies in the tree lies in a directory of it. -/
def IsClosed (tree : FileTree) : Prop :=
  ∀ location name, tree.get? (location ++ [name]) ≠ none → tree.get? location = some .directory

/-- Below what is missing there is nothing. -/
theorem IsClosed.get?_append (h : tree.IsClosed) (hnone : tree.get? location = none)
    (below : Location) : tree.get? (location ++ below) = none := by
  induction below generalizing location with
  | nil => rw [List.append_nil, hnone]
  | cons name below ih =>
    rw [← List.singleton_append, ← List.append_assoc]
    refine ih (of_not_not fun hsome => ?_)
    rw [h location name hsome] at hnone
    cases hnone

theorem isClosed_empty : empty.IsClosed := by
  intro location name hsome
  cases location with
  | nil => rfl
  | cons first location =>
    have hdeep : first :: location ++ [name] ≠ ["work"] := by simp
    refine absurd ?_ hsome
    rw [get?, if_neg (by simp), empty, List.lookup_cons, beq_eq_false_iff_ne.mpr hdeep]
    rfl

theorem step_ne_notFound (start : Location) (name : String) : step start name ≠ .error .notFound := by
  unfold step
  split
  · simp
  · split <;> simp

theorem eq_of_step (hup : name ≠ "..") (h : step start name = .ok location) :
    location = start ++ [name] := by
  rw [step, if_neg hup] at h
  split at h
  · cases h
  · exact (Except.ok.inj h).symm

/-- Names that do not lead up lead to the location with them behind. -/
theorem eq_of_follow : ∀ {names : List String} {start : Location}, ".." ∉ names →
    tree.follow start names = .ok location → location = start ++ names
  | [], _, _, hfollow => by
    rw [List.append_nil]
    exact (Except.ok.inj hfollow).symm
  | [_], _, hdown, hfollow => eq_of_step (fun h => hdown (by simp [h])) hfollow
  | _ :: _ :: _, _, hdown, hfollow => by
    obtain ⟨between, hstep, -, hrest⟩ := follow_eq_ok_iff.mp hfollow
    rw [List.mem_cons, not_or] at hdown
    rw [eq_of_follow hdown.2 hrest, eq_of_step (Ne.symm hdown.1) hstep]
    simp

/-- Where a directory is missing on the way, there is nothing. -/
theorem IsClosed.get?_of_follow (h : tree.IsClosed) : ∀ {names : List String} {start : Location},
    ".." ∉ names → tree.follow start names = .error .notFound → tree.get? (start ++ names) = none
  | [], _, _, hfollow => by cases hfollow
  | [name], start, _, hfollow => absurd hfollow (step_ne_notFound start name)
  | name :: next :: rest, start, hdown, hfollow => by
    rw [List.mem_cons, not_or] at hdown
    rw [follow] at hfollow
    cases hstep : step start name with
    | error e =>
      rw [hstep] at hfollow
      exact absurd (hstep.trans hfollow) (step_ne_notFound start name)
    | ok between =>
      have hbetween := eq_of_step (Ne.symm hdown.1) hstep
      have hnames : start ++ name :: next :: rest = between ++ next :: rest := by
        rw [hbetween, List.append_assoc, List.singleton_append]
      rw [hstep] at hfollow
      dsimp only at hfollow
      rw [hnames]
      split at hfollow
      case h_1 hnone => exact h.get?_append hnone _
      case h_2 => cases hfollow
      case h_3 => exact h.get?_of_follow hdown.2 hfollow

end FileTree

end FrameExport
