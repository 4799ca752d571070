import FrameExport.Proofs.DesignFile
import FrameExport.Proofs.Fallible

/-!
# Files and the frames they hold

`DesignFile.Holds file frame` says that a frame stands among the members of the first page of a file,
behind members that are no main frames.  The rest of the file may be anything: the members behind the
frame, the other pages and the other keys of file, document and page.  Only the name of the file must
be a text or null.

From such a file the export takes that frame, and nothing else (`rootIn_of_holds`).  Every file from
which a frame is taken holds one (`exists_holds_of_rootIn`).
-/

namespace FrameExport

namespace DesignFile

variable {file frame : Json} {document : Fields} {tree : Tree Node}

/-- The frame stands in the first page of the file, and no main frame before it. -/
def Holds (file frame : Json) : Prop :=
  ∃ (fields document : Fields) (page : Json) (pages before after : List Json),
    file = .obj fields
      ∧ (fields.get "name" = .null ∨ ∃ name, fields.get "name" = .str name)
      ∧ fields.get "document" = .obj document
      ∧ document.get "children" = .arr (page :: pages)
      ∧ page.fieldsOrEmpty.get "children" = .arr (before ++ frame :: after)
      ∧ (∀ member ∈ before, isMainFrame member = false)
      ∧ isMainFrame frame = true

/-! ### The file -/

/-- A file is read exactly if it is an object with an object as its document, and with a text as
its name if it has one. -/
theorem exists_read_iff :
    (∃ name, read file = .ok ⟨name, document⟩) ↔ ∃ fields, file = .obj fields
      ∧ Fields.get fields "document" = .obj document
      ∧ (Fields.get fields "name" = .null ∨ ∃ name, Fields.get fields "name" = .str name) := by
  cases file with
  | obj fields =>
    simp only [read, Json.fieldsOrEmpty, Json.fields?, Option.getD_some, Json.obj.injEq,
      exists_eq_left']
    cases hdocument : Fields.get fields "document" with
    | obj document' =>
      simp only [check, hdocument, mapError_eq_ok_iff, Checked.toExcept_eq_ok_iff]
      cases hname : Fields.get fields "name" <;>
        simp [SourceNode.readOptional, SourceNode.readText, SourceNode.readObject, Checked.sound,
          Checked.faulty]
    | _ => simp
  | _ => simp [read, Json.fieldsOrEmpty, Json.fields?, Fields.get]

/-! ### The frame -/

theorem walk_arr (vs : List Json) : (Json.arr vs).walk = .ok vs := by
  cases vs <;> rfl

theorem mainFrame_of_members {page : Json} {pages before after : List Json}
    (hpages : document.get "children" = .arr (page :: pages))
    (hmembers : page.fieldsOrEmpty.get "children" = .arr (before ++ frame :: after))
    (hbefore : ∀ member ∈ before, isMainFrame member = false) (hframe : isMainFrame frame = true) :
    mainFrame document = .ok frame := by
  have hfind : (before ++ frame :: after).find? isMainFrame = some frame := by
    refine List.find?_eq_some_iff_append.mpr ⟨hframe, before, after, rfl, fun member hm => ?_⟩
    rw [hbefore member hm]
    rfl
  rw [mainFrame_eq_of_page hpages, hmembers, walk_arr, Except.map, hfind]
  rfl

/-- Only among the items of an array there is a main frame. -/
theorem eq_arr_of_find?_walk {v : Json} {members : List Json} (hwalk : v.walk = .ok members)
    (hfind : members.find? isMainFrame = some frame) : v = .arr members := by
  unfold Json.walk at hwalk
  split at hwalk
  · cases v with
    | arr items => rw [Except.ok.inj hwalk]
    | str s =>
      obtain rfl := Except.ok.inj hwalk
      rw [find?_isMainFrame_map_str] at hfind
      cases hfind
    | obj fs =>
      obtain rfl := Except.ok.inj hwalk
      rw [find?_isMainFrame_map_str] at hfind
      cases hfind
    | null | bool | int | double => cases hwalk
  · obtain rfl := Except.ok.inj hwalk
    cases hfind

theorem exists_of_mainFrame (h : mainFrame document = .ok frame) :
    ∃ page pages before after, document.get "children" = .arr (page :: pages)
      ∧ page.fieldsOrEmpty.get "children" = .arr (before ++ frame :: after)
      ∧ (∀ member ∈ before, isMainFrame member = false) ∧ isMainFrame frame = true := by
  unfold mainFrame at h
  split at h
  case h_2 => cases h
  rename_i page pages hpages
  split at h
  case h_1 => cases h
  rename_i members hwalk
  split at h
  case h_2 => cases h
  rename_i found hfind
  obtain rfl := Except.ok.inj h
  obtain ⟨hframe, before, after, rfl, hbefore⟩ := List.find?_eq_some_iff_append.mp hfind
  exact ⟨page, pages, before, after, hpages, eq_arr_of_find?_walk hwalk hfind,
    fun member hm => by simpa using hbefore member hm, hframe⟩

/-- The export takes the frame that a file holds, and nothing else. -/
theorem rootIn_of_holds (h : Holds file frame) :
    rootIn file = ((SourceNode.readTree frame).mapError .structural).map root := by
  obtain ⟨fields, document, page, pages, before, after, hfile, hname, hdocument, hpages, hmembers,
    hbefore, hframe⟩ := h
  obtain ⟨name, hread⟩ := exists_read_iff.mpr ⟨fields, hfile, hdocument, hname⟩
  have hmain := mainFrame_of_members hpages hmembers hbefore hframe
  rw [rootIn, hread]
  show (DesignFile.frame ⟨name, document⟩ >>= _) = _
  rw [DesignFile.frame, hmain]
  show ((SourceNode.readTree frame).mapError DesignError.structural >>= fun source =>
    pure (root source)) = _
  cases SourceNode.readTree frame <;> rfl

theorem rootIn_eq_ok_iff_of_holds (h : Holds file frame) :
    rootIn file = .ok tree ↔ ∃ source, SourceNode.readTree frame = .ok source ∧ root source = tree := by
  rw [rootIn_of_holds h, map_eq_ok_iff]
  exact exists_congr fun source => by rw [mapError_eq_ok_iff]

/-- A frame that is held is an object. -/
theorem Holds.exists_fields (h : Holds file frame) : ∃ fields : Fields, frame = .obj fields := by
  obtain ⟨_, _, _, _, _, _, -, -, -, -, -, -, hframe⟩ := h
  cases frame with
  | obj fields => exact ⟨fields, rfl⟩
  | _ => cases hframe

/-- A file from which a frame is taken holds one. -/
theorem exists_holds_of_rootIn (h : rootIn file = .ok tree) : ∃ frame, Holds file frame := by
  obtain ⟨⟨name, document⟩, hread, h⟩ := bind_eq_ok_iff.mp h
  obtain ⟨source, hsource, -⟩ := bind_eq_ok_iff.mp h
  obtain ⟨frame, hframe, -⟩ := bind_eq_ok_iff.mp hsource
  obtain ⟨fields, hfile, hdocument, hname⟩ :=
    exists_read_iff.mp ⟨name, mapError_eq_ok_iff.mp hread⟩
  obtain ⟨page, pages, before, after, hpages, hmembers, hbefore, hmain⟩ :=
    exists_of_mainFrame hframe
  exact ⟨frame, fields, document, page, pages, before, after, hfile, hname, hdocument, hpages,
    hmembers, hbefore, hmain⟩

end DesignFile

namespace Rendering

/-- A file with a frame of the given fields. -/
def fileOfFrame (frame : Fields) : Json :=
  .obj [("document", .obj [("children", .arr [.obj [("children", .arr [.obj frame])]])])]

theorem holds_fileOfFrame {frame : Fields} (h : DesignFile.isMainFrame (.obj frame) = true) :
    DesignFile.Holds (fileOfFrame frame) (.obj frame) :=
  ⟨_, _, _, [], [], [], rfl, Or.inl rfl, rfl, rfl, rfl,
    fun _ hmember => absurd hmember List.not_mem_nil, h⟩

end Rendering

end FrameExport
