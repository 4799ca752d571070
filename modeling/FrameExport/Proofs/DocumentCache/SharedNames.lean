import FrameExport.Proofs.DocumentCache.History

/-!
# Keys that share an entry

The file name of an entry is made of the key, and different keys can have one name.  On a cache that
was empty, the entry of a key holds the file of the first key of the calls so far that has this entry
(`Shelves`), and that is what every call gives (`answers_of_keys`).  Keys that are safe names already
have entries of their own.
-/

namespace FrameExport.DocumentCache

variable {cache : DocumentCache} {files made : FileTree} {key other : String} {s : Session}
  {doc : String → Fields} {keys past : List String}

/-! ### The first key with an entry -/

/-- Whether two keys have one entry. -/
def shareEntry (key other : String) : Bool := Text.safeName other == Text.safeName key

/-- The first of some keys that has the entry of a key. -/
def firstLike (keys : List String) (key : String) : String := (keys.find? (shareEntry key)).getD key

/-- What the entry of a key says after calls for some keys, if there was no entry before. -/
def entryAfter (doc : String → Fields) (past : List String) (key : String) : CacheEntry :=
  match past.find? (shareEntry key) with
  | some first => .found (doc first)
  | none => .absent

theorem shareEntry_iff : shareEntry key other = true ↔ Text.safeName other = Text.safeName key :=
  beq_iff_eq

theorem shareEntry_congr (h : Text.safeName other = Text.safeName key) :
    shareEntry other = shareEntry key := by
  funext k
  rw [shareEntry, shareEntry, h]

theorem safeName_firstLike (keys : List String) (key : String) :
    Text.safeName (firstLike keys key) = Text.safeName key := by
  rw [firstLike]
  cases hfind : keys.find? (shareEntry key) with
  | none => rfl
  | some first => exact shareEntry_iff.mp (List.find?_some hfind)

theorem firstLike_mem (hkey : key ∈ keys) : firstLike keys key ∈ keys := by
  rw [firstLike]
  cases hfind : keys.find? (shareEntry key) with
  | none => exact hkey
  | some first => exact List.mem_of_find?_eq_some hfind

/-- Calls that come later do not change which key was first. -/
theorem firstLike_append_cons (past : List String) (key : String) (rest : List String) :
    firstLike (past ++ key :: rest) key = (past.find? (shareEntry key)).getD key := by
  have hself : shareEntry key key = true := shareEntry_iff.mpr rfl
  rw [firstLike, List.find?_append, List.find?_cons_of_pos hself]
  cases past.find? (shareEntry key) <;> rfl

/-- The first key of an entry stays the first. -/
theorem entryAfter_concat_of_some {first : String} (h : past.find? (shareEntry key) = some first)
    (later : String) : entryAfter doc (past ++ [later]) key = entryAfter doc past key := by
  rw [entryAfter, entryAfter, List.find?_append, h]
  rfl

theorem entryAfter_concat_of_none (h : past.find? (shareEntry key) = none) :
    entryAfter doc (past ++ [key]) key = .found (doc key) := by
  rw [entryAfter, List.find?_append, h, List.find?_cons_of_pos (shareEntry_iff.mpr rfl)]
  rfl

theorem entryAfter_concat_of_ne (h : Text.safeName other ≠ Text.safeName key) :
    entryAfter doc (past ++ [key]) other = entryAfter doc past other := by
  have hshare : ¬ shareEntry other key = true := fun hshare => h (shareEntry_iff.mp hshare).symm
  rw [entryAfter, entryAfter, List.find?_append, List.find?_cons_of_neg hshare, List.find?_nil,
    Option.or_none]

theorem entryAfter_congr (h : Text.safeName other = Text.safeName key) :
    entryAfter doc past other = entryAfter doc past key := by
  rw [entryAfter, entryAfter, shareEntry_congr h]

/-! ### What the entries hold -/

/-- After calls for some keys on a cache that was empty, keys can be kept, and each entry holds the
file of the first key of the calls that has it. -/
structure Shelves (cache : DocumentCache) (doc : String → Fields) (keys past : List String)
    (files made : FileTree) : Prop where
  canKeep : ∀ key ∈ keys, cache.CanKeep files made key
  lookup_made : ∀ key ∈ keys, cache.lookup made key = .ok (entryAfter doc past key)
  lookup_eq : ∀ key ∈ keys, cache.lookup files key = .ok (entryAfter doc past key)

theorem shelves_nil (hmakes : files.makeDirectories cache.directory = (made, .ok ()))
    (hempty : ∀ key ∈ keys, made.find (cache.pathOf key) = .ok none) :
    Shelves cache doc keys [] files made := by
  have hkeep : ∀ key ∈ keys, cache.CanKeep files made key := fun key hkey =>
    ⟨hmakes, none, hempty key hkey, by simp⟩
  have hmade : ∀ key ∈ keys, cache.lookup made key = .ok .absent := fun key hkey =>
    lookup_of_find_eq_none (hempty key hkey)
  refine ⟨hkeep, hmade, fun key hkey => ?_⟩
  rcases (hkeep key hkey).lookup_cases with habsent | hsame
  · exact habsent
  · rw [hsame]
    exact hmade key hkey

/-- A call for an entry that has its file leaves the entries as they are. -/
theorem Shelves.concat_of_some {first : String} (h : Shelves cache doc keys past files made)
    (hfirst : past.find? (shareEntry key) = some first) :
    Shelves cache doc keys (past ++ [key]) files made := by
  have hentry : ∀ other, entryAfter doc (past ++ [key]) other = entryAfter doc past other := by
    intro other
    by_cases hname : Text.safeName other = Text.safeName key
    · rw [← shareEntry_congr hname] at hfirst
      exact entryAfter_concat_of_some hfirst key
    · exact entryAfter_concat_of_ne hname
  exact ⟨h.canKeep, fun other hother => by rw [hentry, h.lookup_made other hother],
    fun other hother => by rw [hentry, h.lookup_eq other hother]⟩

/-- Keeping the file of a key whose entry has none fills that entry and no other. -/
theorem Shelves.concat_of_none (h : Shelves cache doc keys past files made) (hkey : key ∈ keys)
    (hreadable : (Json.obj (doc key)).isReadable = true)
    (hfirst : past.find? (shareEntry key) = none) :
    Shelves cache doc keys (past ++ [key]) (cache.keep made key (.obj (doc key)))
      (cache.keep made key (.obj (doc key))) := by
  have hkeep := h.canKeep key hkey
  have hlookup : ∀ other ∈ keys, cache.lookup (cache.keep made key (.obj (doc key))) other
      = .ok (entryAfter doc (past ++ [key]) other) := by
    intro other hother
    by_cases hname : Text.safeName other = Text.safeName key
    · rw [lookup_congr_name hname, hkeep.lookup_keep_self hreadable, entryAfter_congr hname,
        entryAfter_concat_of_none hfirst]
    · rw [hkeep.lookup_keep_of_ne _ hname, h.lookup_made other hother, entryAfter_concat_of_ne hname]
  exact ⟨fun other hother => hkeep.keep (h.canKeep other hother) _, hlookup, hlookup⟩

/-- A call gives the file of the first key with the entry, and the entries stay as they should be. -/
theorem Shelves.call (h : Shelves cache doc keys past s.files made) (hkey : key ∈ keys)
    (hreadable : (Json.obj (doc key)).isReadable = true) :
    (cache.call key (.ok (doc key)) s).1.answer
        = .ok (.obj (doc ((past.find? (shareEntry key)).getD key))) ∧
      ∃ made', Shelves cache doc keys (past ++ [key]) (cache.call key (.ok (doc key)) s).2.files
        made' := by
  have hlookup := h.lookup_eq key hkey
  cases hfirst : past.find? (shareEntry key) with
  | some first =>
    rw [entryAfter, hfirst] at hlookup
    have hcall := call_of_found (.ok (doc key)) hlookup
    rw [files_call, hcall]
    exact ⟨rfl, made, h.concat_of_some hfirst⟩
  | none =>
    rw [entryAfter, hfirst] at hlookup
    have hcall := call_of_answer (doc key) hlookup rfl (h.canKeep key hkey)
    rw [files_call, hcall]
    exact ⟨rfl, _, h.concat_of_none hkey hreadable hfirst⟩

/-! ### What the calls give -/

/-- The calls for some keys, with a source that has a file for every key. -/
def callsWith (doc : String → Fields) (keys : List String) : List (String × SourceReply) :=
  keys.map fun key => (key, .ok (doc key))

theorem Shelves.answers (hreadable : ∀ key ∈ keys, (Json.obj (doc key)).isReadable = true)
    {rest : List String} (hrest : rest ⊆ keys) (h : Shelves cache doc keys past s.files made) :
    (cache.history (callsWith doc rest) s).map (·.answer)
      = rest.map fun key => .ok (.obj (doc (firstLike (past ++ rest) key))) := by
  induction rest generalizing past s made with
  | nil => rfl
  | cons key rest ih =>
    obtain ⟨hkey, hrest⟩ := List.cons_subset.mp hrest
    obtain ⟨hanswer, made', hshelves⟩ := h.call hkey (hreadable key hkey)
    have hlater := ih hrest hshelves
    rw [List.append_assoc, List.singleton_append] at hlater
    rw [callsWith, List.map_cons, history_cons, List.map_cons, hanswer, ← callsWith, hlater,
      List.map_cons, firstLike_append_cons]

/-- The first of some keys with the entry of a safe name is that name, if all of them are safe. -/
theorem firstLike_of_isSafeName (hsafe : ∀ key ∈ keys, Text.IsSafeName key) (hkey : key ∈ keys) :
    firstLike keys key = key := by
  have hname := safeName_firstLike keys key
  rwa [Text.safeName_eq_self (hsafe key hkey),
    Text.safeName_eq_self (hsafe _ (firstLike_mem hkey))] at hname

/-- On a cache that is empty once its directory is made, with a source that has a file for every key,
each read from some text, every call gives the file of the first key of the calls that has the same
safe name.  This is the file of the key itself if no other key of the calls has that name, and always
if the keys are safe names already. -/
theorem answers_of_keys (hmakes : s.files.makeDirectories cache.directory = (made, .ok ()))
    (hempty : ∀ key ∈ keys, made.find (cache.pathOf key) = .ok none)
    (hread : ∀ key ∈ keys, ∃ text, Json.read text = .ok (.obj (doc key))) :
    (cache.history (callsWith doc keys) s).map (·.answer)
        = keys.map (fun key => .ok (.obj (doc (firstLike keys key)))) ∧
      (∀ key ∈ keys, Text.safeName (firstLike keys key) = Text.safeName key ∧
        ((∀ other ∈ keys, Text.safeName other = Text.safeName key → other = key) →
          firstLike keys key = key)) ∧
      ((∀ key ∈ keys, Text.IsSafeName key) →
        (cache.history (callsWith doc keys) s).map (·.answer)
          = keys.map fun key => .ok (.obj (doc key))) := by
  have hreadable : ∀ key ∈ keys, (Json.obj (doc key)).isReadable = true := fun key hkey =>
    Json.isReadable_iff_exists_read.mpr (hread key hkey)
  have hanswers := (shelves_nil hmakes hempty).answers hreadable (List.Subset.refl keys)
  refine ⟨hanswers, fun key hkey => ?_, fun hsafe => hanswers.trans ?_⟩
  · exact ⟨safeName_firstLike keys key,
      fun halone => halone _ (firstLike_mem hkey) (safeName_firstLike keys key)⟩
  · refine List.map_congr_left fun key hkey => ?_
    rw [List.nil_append, firstLike_of_isSafeName hsafe hkey]

/-- The file with the key as its name. -/
def named (key : String) : Fields := [("name", .str key)]

/-- Two keys with one name and a third, on a cache whose directory is missing. -/
theorem answers_of_keys_shared :
    let made := (FileTree.empty.makeDirectories standard.directory).1
    let keys := ["a b", "c", "a_b"]
    FileTree.empty.makeDirectories standard.directory = (made, .ok ()) ∧
      (∀ key ∈ keys, made.find (standard.pathOf key) = .ok none) ∧
      (∀ key ∈ keys, ∃ text, Json.read text = .ok (.obj (named key))) ∧
      (standard.history (callsWith named keys) (.start .empty [] [])).map (·.answer)
        = [.ok (.obj (named "a b")), .ok (.obj (named "c")), .ok (.obj (named "a b"))] := by
  intro made keys
  have hempty : ∀ key ∈ keys, made.find (standard.pathOf key) = .ok none := by
    simp only [keys, List.forall_mem_cons, List.not_mem_nil]
    exact ⟨rfl, rfl, rfl, by simp⟩
  have hreadable : ∀ key ∈ keys, (Json.obj (named key)).isReadable = true := by decide
  have hread : ∀ key ∈ keys, ∃ text, Json.read text = .ok (.obj (named key)) := fun key hkey =>
    Json.isReadable_iff_exists_read.mp (hreadable key hkey)
  have hanswers := (answers_of_keys (s := .start .empty [] []) rfl hempty hread).1
  exact ⟨rfl, hempty, hread, hanswers⟩

/-- A call can give the file of another key, whose entry has the same name.  It can also fail though
the source has the file: because the name is too long, because a file is in the place of the
directory, or because making the directory puts one in the place of the entry. -/
theorem answers_of_other_keys :
    ((standard.history (callsWith named ["a b", "a_b"]) (.start .empty [] [])).map (·.answer)
        = [.ok (.obj (named "a b")), .ok (.obj (named "a b"))] ∧ named "a_b" ≠ named "a b") ∧
    (standard.history (callsWith named [letters 300]) (.start .empty [] [])).map (·.answer)
        = [.error (.file .nameTooLong)] ∧
    ((ofDirectory "k.json").history (callsWith named ["a"]) (.start (oneEntry "") [] [])).map
        (·.answer) = [.error (.file .alreadyExists)] ∧
    ((ofDirectory "x.json/..").history (callsWith named ["x"]) (.start .empty [] [])).map (·.answer)
        = [.error (.file .isADirectory)] := by
  refine ⟨⟨?_, by simp [named]⟩, ?_, rfl, rfl⟩
  · have hempty : ∀ key ∈ ["a b", "a_b"], (FileTree.empty.makeDirectories standard.directory).1.find
        (standard.pathOf key) = .ok none := by
      simp only [List.forall_mem_cons, List.not_mem_nil]
      exact ⟨rfl, rfl, by simp⟩
    have hshelves : Shelves standard named ["a b", "a_b"] [] (Session.start .empty [] []).files
        (FileTree.empty.makeDirectories standard.directory).1 := shelves_nil rfl hempty
    exact hshelves.answers (by decide) (List.Subset.refl _)
  · have hlookup : standard.lookup (Session.start .empty [] []).files (letters 300) = .ok .absent :=
      lookup_of_find_eq_none find_letters
    have hcall := call_of_long (named (letters 300)) hlookup rfl rfl long_letters
    rw [callsWith, List.map_singleton, history_cons, hcall]
    rfl

end FrameExport.DocumentCache
