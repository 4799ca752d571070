import FrameExport.Proofs.Files.FileTree

/-!
# Making directories

Making directories adds them where nothing was and does nothing else (`grows_makeDirectories`).
Afterwards the path is that of a directory (`exists_leads_of_makeDirectories`), and where it is that
already, nothing is done (`makeDirectories_of_leads`).

A name in a directory lies at the location of the directory with the name behind it, if the file
system takes it (`Leads.locate_child`).  If the path of the directory leads down only, what the name
stands for is the same before and after the directory is made (`IsClosed.sameAt_child`); this fails
for paths that lead up, since a directory that is made on the way opens the way to others.
-/

namespace FrameExport

namespace Path

variable {path : Path} {name : String} {c : Char}

theorem intercalate_concat (sep ds : List Char) {css : List (List Char)} (hcss : css ≠ []) :
    sep.intercalate (css ++ [ds]) = sep.intercalate css ++ sep ++ ds := by
  induction css with
  | nil => exact absurd rfl hcss
  | cons cs css ih =>
    cases css with
    | nil =>
      rw [List.singleton_append, List.intercalate_cons_cons, List.intercalate_singleton,
        List.intercalate_singleton]
    | cons ds' css =>
      have hrest := ih (List.cons_ne_nil ds' css)
      rw [List.cons_append] at hrest
      rw [List.cons_append, List.cons_append, List.intercalate_cons_cons, hrest,
        List.intercalate_cons_cons]
      simp only [List.append_assoc]

/-- A name in a directory is written behind a slash. -/
theorem text_child (hnames : path.names ≠ []) (name : String) :
    (path.child name).text = path.text ++ "/" ++ name := by
  have hmap : path.names.map String.toList ≠ [] := by simpa using hnames
  rw [text, text, if_neg (by simp [child]), if_neg (by simp [hnames]), ← String.toList_inj]
  simp only [child, String.toList_append, String.toList_ofList, String.toList_intercalate,
    List.map_append, List.map_singleton, intercalate_concat _ _ hmap, List.append_assoc]

theorem text_child_of_bare (hnames : path.names = []) (name : String) :
    (path.child name).text = String.ofList (List.replicate path.slashes '/') ++ name := by
  rw [text, if_neg (by simp [child]), child, hnames, List.nil_append, String.intercalate_singleton]

/-- The path of a name in a directory has no characters but those of the two, and slashes. -/
theorem mem_text_child (hc : c ∈ (path.child name).text.toList) :
    c = '/' ∨ c ∈ path.text.toList ∨ c ∈ name.toList := by
  by_cases hnames : path.names = []
  · rw [text_child_of_bare hnames, String.toList_append, String.toList_ofList, List.mem_append] at hc
    rcases hc with hc | hc
    · exact Or.inl (List.eq_of_mem_replicate hc)
    · exact Or.inr (Or.inr hc)
  · rw [text_child hnames, String.toList_append, String.toList_append, List.mem_append,
      List.mem_append] at hc
    rcases hc with (hc | hc) | hc
    · exact Or.inr (Or.inl hc)
    · exact Or.inl (List.mem_singleton.mp hc)
    · exact Or.inr (Or.inr hc)

theorem notMem_text_child (hpath : Char.ofNat 0 ∉ path.text.toList)
    (hname : Char.ofNat 0 ∉ name.toList) : Char.ofNat 0 ∉ (path.child name).text.toList := by
  intro hmem
  rcases mem_text_child hmem with hslash | hmem | hmem
  · exact absurd hslash (by decide)
  · exact hpath hmem
  · exact hname hmem

end Path

namespace FileTree

variable {tree tree' : FileTree} {location other : Location} {names : List String}
  {name : String} {path : Path} {error : FileError}

/-! ### Making directories -/

theorem exists_set_of_makeDirectory (h : tree.makeDirectory path = .ok tree') :
    ∃ location, tree.locate path = .ok location ∧ tree.get? location = none ∧
      tree' = tree.set location .directory := by
  obtain ⟨location, hlocate, hset⟩ := bind_eq_ok_iff.mp h
  refine ⟨location, hlocate, ?_⟩
  cases hget : tree.get? location with
  | some entry =>
    rw [hget] at hset
    cases hset
  | none =>
    rw [hget] at hset
    exact ⟨rfl, (Except.ok.inj hset).symm⟩

theorem grows_of_makeDirectory (h : tree.makeDirectory path = .ok tree') : Grows tree tree' := by
  obtain ⟨location, -, hnone, rfl⟩ := exists_set_of_makeDirectory h
  refine ⟨rfl, fun other => ?_⟩
  rw [get?_set tree (ne_nil_of_get?_ne (by rw [hnone]; simp))]
  split
  case isTrue hother =>
    rw [hother]
    exact Or.inr ⟨hnone, rfl⟩
  case isFalse => exact Or.inl rfl

/-- What every making of one directory on the way keeps is kept when all of them are made. -/
theorem makeNamed_induction {P : FileTree → Prop} {slashes : Nat}
    (hstep : ∀ {t t' : FileTree} {path : Path}, path.slashes = slashes →
      path.names <+: names.reverse → t.makeDirectory path = .ok t' → P t → P t')
    (h : P tree) : P (makeNamed slashes tree names).1 := by
  induction names generalizing tree with
  | nil => exact h
  | cons name above ih =>
    have habove : P (makeNamed slashes tree above).1 := by
      refine ih (fun hslashes hbefore => hstep hslashes (hbefore.trans ?_)) h
      rw [List.reverse_cons]
      exact List.prefix_append _ _
    rw [makeNamed]
    split
    case h_1 made hmade => exact hstep rfl (List.prefix_refl _) hmade h
    case h_2 =>
      split
      case h_1 made e hmade =>
        rw [hmade] at habove
        exact habove
      case h_2 made hmade =>
        rw [hmade] at habove
        split
        case h_1 made' hmade' => exact hstep rfl (List.prefix_refl _) hmade' habove
        case h_2 => exact habove
        case h_3 => exact habove
    case h_3 => exact h

theorem grows_makeDirectories (tree : FileTree) (path : Path) :
    Grows tree (tree.makeDirectories path).1 :=
  makeNamed_induction (fun _ _ hmade h => h.trans (grows_of_makeDirectory hmade)) (Grows.refl tree)

theorem grows_of_makeDirectories {answer : Except FileError Unit}
    (h : tree.makeDirectories path = (tree', answer)) : Grows tree tree' := by
  have hgrows := grows_makeDirectories tree path
  rwa [h] at hgrows

/-! ### Paths of directories -/

/-- The path is that of a directory at a location; a path without names is that of the directory
that it starts from. -/
inductive Leads (tree : FileTree) (path : Path) : Location → Prop where
  | bare (hnames : path.names = []) : Leads tree path (tree.startOf path)
  | named {location : Location} (hlocate : tree.locate path = .ok location)
    (hdirectory : tree.get? location = some .directory) : Leads tree path location

/-- The path of a directory stays that in a tree that has its directories. -/
theorem Leads.of_directories (h : tree.Leads path location) (hhere : tree'.here = tree.here)
    (hkept : ∀ other, tree.get? other = some .directory → tree'.get? other = some .directory) :
    tree'.Leads path location := by
  cases h with
  | bare hnames =>
    rw [← startOf_eq hhere]
    exact .bare hnames
  | named hlocate hdirectory =>
    exact .named (locate_of_directories hkept hhere hlocate) (hkept _ hdirectory)

/-- Setting a file where there is no directory leaves the paths of directories as they are. -/
theorem Leads.set_file (h : tree.Leads path location) (hfree : tree.get? other ≠ some .directory)
    (content : ByteArray) : (tree.set other (.file content)).Leads path location :=
  h.of_directories rfl fun _ => get?_set_file hfree content

/-- Writing a file leaves the paths of directories as they are. -/
theorem Leads.of_write {elsewhere : Path} {content : ByteArray} (h : tree.Leads path location)
    (hwrite : tree.write elsewhere content = .ok tree') : tree'.Leads path location := by
  obtain ⟨place, -, hfree, rfl⟩ := write_eq_ok_iff.mp hwrite
  exact h.set_file hfree content

theorem leads_of_unlessDirectory (h : tree.unlessDirectory path error = .ok ()) :
    ∃ location, tree.Leads path location := by
  unfold unlessDirectory at h
  split at h
  case h_1 => cases h
  case h_2 =>
    split at h
    case h_1 hfind =>
      unfold find at hfind
      split at hfind
      case h_1 location hlocate => exact ⟨location, .named hlocate (Except.ok.inj hfind)⟩
      all_goals cases hfind
    case h_2 => cases h
    case h_3 => cases h

theorem leads_of_makeDirectory (h : tree.makeDirectory path = .ok tree') :
    ∃ location, tree'.Leads path location := by
  have hgrows := grows_of_makeDirectory h
  obtain ⟨location, hlocate, hnone, rfl⟩ := exists_set_of_makeDirectory h
  refine ⟨location, .named ?_ ?_⟩
  · exact locate_of_directories (fun _ => hgrows.directory) hgrows.here_eq hlocate
  · rw [get?_set tree (ne_nil_of_get?_ne (by rw [hnone]; simp)), if_pos rfl]

/-- When the directories are made, the path is that of a directory. -/
theorem exists_leads_of_makeDirectories (h : tree.makeDirectories path = (tree', .ok ())) :
    ∃ location, tree'.Leads path location := by
  obtain ⟨slashes, names⟩ := path
  obtain ⟨names, rfl⟩ := List.reverse_surjective names
  rw [makeDirectories, List.reverse_reverse] at h
  cases names with
  | nil =>
    rw [makeNamed, Prod.mk.injEq] at h
    exact ⟨_, .bare rfl⟩
  | cons name above =>
    dsimp only at h
    rw [makeNamed] at h
    split at h
    case h_1 made hmade =>
      rw [Prod.mk.injEq] at h
      exact h.1 ▸ leads_of_makeDirectory hmade
    case h_2 =>
      split at h
      case h_1 => cases h
      case h_2 =>
        split at h
        case h_1 made hmade =>
          rw [Prod.mk.injEq] at h
          exact h.1 ▸ leads_of_makeDirectory hmade
        case h_2 => cases h
        case h_3 =>
          rw [Prod.mk.injEq] at h
          exact h.1 ▸ leads_of_unlessDirectory h.2
    case h_3 =>
      rw [Prod.mk.injEq] at h
      exact h.1 ▸ leads_of_unlessDirectory h.2

/-- Where there is a directory already, none is made. -/
theorem makeDirectories_of_leads (h : tree.Leads path location) :
    tree.makeDirectories path = (tree, .ok ()) := by
  obtain ⟨slashes, names⟩ := path
  obtain ⟨names, rfl⟩ := List.reverse_surjective names
  rw [makeDirectories, List.reverse_reverse]
  cases h with
  | bare hnames =>
    rw [List.reverse_eq_nil_iff.mp hnames]
    rfl
  | named hlocate hdirectory =>
    cases names with
    | nil => rfl
    | cons name above =>
      have hmake : tree.makeDirectory ⟨slashes, (name :: above).reverse⟩ = .error .alreadyExists := by
        refine bind_eq_error_iff.mpr (Or.inr ⟨location, hlocate, ?_⟩)
        rw [hdirectory]
        rfl
      have hfind : tree.find ⟨slashes, (name :: above).reverse⟩ = .ok (some .directory) := by
        rw [find, hlocate]
        exact congrArg Except.ok hdirectory
      dsimp only
      rw [makeNamed, hmake]
      simp only [unlessDirectory, hfind]

/-- A name in a directory lies there, unless it or its path is too long. -/
theorem Leads.locate_child (h : tree.Leads path location) (hup : name ≠ "..")
    (hname : Char.ofNat 0 ∉ name.toList) :
    tree.locate (path.child name)
      = if pathBytesLimit ≤ (path.child name).text.utf8ByteSize ∨ maxNameBytes < name.utf8ByteSize
        then .error .nameTooLong else .ok (location ++ [name]) := by
  have hstep : step location name
      = if maxNameBytes < name.utf8ByteSize then .error .nameTooLong
        else .ok (location ++ [name]) := by
    rw [step, if_neg hup]
  have hfollow : tree.follow (tree.startOf path) (path.names ++ [name]) = step location name := by
    cases h with
    | bare hnames => rw [hnames, List.nil_append, follow]
    | named hlocate hdirectory =>
      obtain ⟨-, -, hfollow⟩ := locate_eq_ok_iff.mp hlocate
      by_cases hnames : path.names = []
      · rw [hnames] at hfollow
        rw [hnames, List.nil_append, follow, Except.ok.inj hfollow]
      · rw [follow_concat tree _ hnames, hfollow]
        dsimp only
        rw [hdirectory]
  have hpath : Char.ofNat 0 ∉ path.text.toList := by
    cases h with
    | bare hnames =>
      intro hmem
      rw [Path.text, hnames] at hmem
      split at hmem
      · simp at hmem
      · simp at hmem
    | named hlocate => exact (locate_eq_ok_iff.mp hlocate).1
  have hnul := Path.notMem_text_child hpath hname
  by_cases hlong : pathBytesLimit ≤ (path.child name).text.utf8ByteSize
  · rw [if_pos (Or.inl hlong), locate, if_neg (by simpa using hnul), if_pos hlong]
  · rw [locate_eq_follow hnul (Nat.lt_of_not_le hlong)]
    show tree.follow (tree.startOf path) (path.names ++ [name]) = _
    rw [hfollow, hstep]
    simp only [hlong, false_or]

/-- Names in a directory that differ lie at different places, if one of them lies anywhere. -/
theorem Leads.locate_child_ne {name' : String} (h : tree.Leads path location) (hup : name ≠ "..")
    (hname : Char.ofNat 0 ∉ name.toList) (hup' : name' ≠ "..") (hname' : Char.ofNat 0 ∉ name'.toList)
    (hne : name ≠ name') (hlocate : tree.locate (path.child name) = .ok other) :
    tree.locate (path.child name) ≠ tree.locate (path.child name') := by
  rw [hlocate, h.locate_child hup' hname']
  split
  case isTrue => simp
  case isFalse =>
    rw [h.locate_child hup hname] at hlocate
    split at hlocate
    case isTrue => cases hlocate
    case isFalse =>
      rw [← Except.ok.inj hlocate]
      simpa using hne

/-- Nothing is found in a directory that is missing, not even under a name that is too long. -/
theorem find_child_of_missing (hnames : path.names ≠ []) (hlocate : tree.locate path = .ok location)
    (hnone : tree.get? location = none) (hname : Char.ofNat 0 ∉ name.toList)
    (hshort : (path.child name).text.utf8ByteSize < pathBytesLimit) :
    tree.find (path.child name) = .ok none := by
  obtain ⟨hpath, -, hfollow⟩ := locate_eq_ok_iff.mp hlocate
  have hmissing : tree.follow (tree.startOf path) (path.names ++ [name]) = .error .notFound := by
    rw [follow_concat tree _ hnames, hfollow]
    dsimp only
    rw [hnone]
  have hlocate' : tree.locate (path.child name) = .error .notFound :=
    (locate_eq_follow (Path.notMem_text_child hpath hname) hshort).trans hmissing
  rw [find, hlocate']

/-! ### Directories whose paths lead down only -/

theorem Leads.eq_of_down (h : tree.Leads path location) (hdown : ".." ∉ path.names) :
    location = tree.startOf path ++ path.names := by
  cases h with
  | bare hnames => rw [hnames, List.append_nil]
  | named hlocate => exact eq_of_follow hdown (locate_eq_ok_iff.mp hlocate).2.2

/-- What lies deeper than the path is as it was. -/
theorem get?_makeDirectories (tree : FileTree) (hdown : ".." ∉ path.names)
    (hdeep : (tree.startOf path ++ path.names).length < location.length) :
    (tree.makeDirectories path).1.get? location = tree.get? location := by
  let P : FileTree → Prop := fun t => t.here = tree.here ∧ t.get? location = tree.get? location
  have hstep : ∀ {t t' : FileTree} {way : Path}, way.slashes = path.slashes →
      way.names <+: path.names.reverse.reverse → t.makeDirectory way = .ok t' → P t → P t' := by
    rintro t t' way hslashes hbefore hmade ⟨hhere, hget⟩
    rw [List.reverse_reverse] at hbefore
    obtain ⟨made, hlocate, hnone, rfl⟩ := exists_set_of_makeDirectory hmade
    refine ⟨hhere, ?_⟩
    rw [get?_set t (ne_nil_of_get?_ne (by rw [hnone]; simp)), if_neg, hget]
    -- the new directory lies on the way
    rintro rfl
    have hmade := eq_of_follow (fun h => hdown (hbefore.subset h)) (locate_eq_ok_iff.mp hlocate).2.2
    rw [startOf, hslashes, hhere, ← startOf] at hmade
    rw [hmade, List.length_append, List.length_append] at hdeep
    exact absurd hbefore.length_le (by omega)
  exact (makeNamed_induction (P := P) hstep ⟨rfl, rfl⟩).2

/-- What a name in a directory stands for does not depend on whether the directory was made first, if
the path of the directory leads down only. -/
theorem IsClosed.sameAt_child (h : tree.IsClosed) (hdown : ".." ∉ path.names)
    (hmake : tree.makeDirectories path = (tree', .ok ())) (hup : name ≠ "..")
    (hname : Char.ofNat 0 ∉ name.toList) (hshort : name.utf8ByteSize ≤ maxNameBytes) :
    SameAt tree tree' (path.child name) := by
  obtain ⟨location, hleads⟩ := exists_leads_of_makeDirectories hmake
  have hgrows := grows_of_makeDirectories hmake
  have hlocate := hleads.locate_child hup hname
  by_cases hlong : pathBytesLimit ≤ (path.child name).text.utf8ByteSize
  · rw [if_pos (Or.inl hlong)] at hlocate
    refine .of_locate_error ?_ hlocate
    rwa [locate, if_pos hlong] at hlocate ⊢
  · rw [if_neg (by omega)] at hlocate
    have hlocation : location = tree.startOf path ++ path.names := by
      rw [hleads.eq_of_down hdown, startOf_eq hgrows.here_eq]
    have hget : (tree.makeDirectories path).1.get? (location ++ [name])
        = tree.get? (location ++ [name]) :=
      get?_makeDirectories tree hdown (by simp [hlocation])
    rw [hmake] at hget
    rcases hgrows.locate_cases hlocate with hfound | hmissing
    · exact .of_locate_ok hfound hlocate hget
    · -- in a closed tree there is nothing where a directory is missing
      have hchild : ".." ∉ path.names ++ [name] := by
        rw [List.mem_append, List.mem_singleton]
        rintro (hmem | hmem)
        · exact hdown hmem
        · exact hup hmem.symm
      obtain ⟨hnul, hsize, -⟩ := locate_eq_ok_iff.mp hlocate
      have hfollow : tree.follow (tree.startOf path) (path.names ++ [name]) = .error .notFound :=
        (locate_eq_follow hnul hsize).symm.trans hmissing
      have hnone := h.get?_of_follow hchild hfollow
      rw [← List.append_assoc, ← hlocation, ← hget] at hnone
      exact .of_missing hmissing hlocate hnone

end FileTree

end FrameExport
