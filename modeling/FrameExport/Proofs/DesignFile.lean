import FrameExport.DesignFile
import FrameExport.Proofs.Node.Sorted

/-!
# Files with sorted fields

The frame of a file with sorted fields is that of the file, with sorted fields, and what is wrong
with the one is wrong with the other (`DesignFile.rootIn_sorted`).

The search for the frame looks at names, and a name that is an object is shown with its fields as
they stand.  Yet a word of letters is found in any order of them (`holdsWord_literal_sorted`): it
cannot go across the marks between the fields.
-/

namespace FrameExport

open Json (sortedObject get_sortedObject)

namespace DesignFile

/-! ### Words in shown values -/

variable {word : List Char} {d : Char}

theorem isPrefixOf_append_cons (hd : d ∉ word) (cs ds : List Char) :
    word.isPrefixOf (cs ++ d :: ds) = word.isPrefixOf cs := by
  induction word generalizing cs with
  | nil => rw [List.isPrefixOf_nil_left, List.isPrefixOf_nil_left]
  | cons c word ih =>
    rw [List.mem_cons, not_or] at hd
    cases cs with
    | nil =>
      have hne : (c == d) = false := beq_eq_false_iff_ne.mpr (Ne.symm hd.1)
      rw [List.nil_append, List.isPrefixOf_cons_cons, hne]
      rfl
    | cons e cs =>
      rw [List.cons_append, List.isPrefixOf_cons_cons, List.isPrefixOf_cons_cons, ih hd.2]

/-- A word stands on one side of a character that is not in it. -/
theorem contains_append_cons (hd : d ∉ word) (hword : word ≠ []) (cs ds : List Char) :
    contains word (cs ++ d :: ds) = (contains word cs || contains word ds) := by
  have hempty : word.isEmpty = false := List.isEmpty_eq_false_iff.mpr hword
  induction cs with
  | nil =>
    have hfirst := isPrefixOf_append_cons hd [] ds
    rw [List.nil_append] at hfirst ⊢
    have hnil : word.isPrefixOf [] = false := by
      obtain ⟨c, word, rfl⟩ := List.exists_cons_of_ne_nil hword
      rfl
    show (word.isPrefixOf (d :: ds) || contains word ds) = (word.isEmpty || contains word ds)
    rw [hfirst, hnil, hempty]
  | cons c cs ih =>
    have hfirst := isPrefixOf_append_cons hd (c :: cs) ds
    rw [List.cons_append] at hfirst ⊢
    rw [contains, hfirst, ih, contains, Bool.or_assoc]

/-- Whether the word that names frames stands in a text, in letters of either case. -/
def holdsWord (cs : List Char) : Bool := contains "frame".toList (Text.asciiLower cs)

theorem holdsWord_append_cons (hd : d.toLower ∉ "frame".toList) (cs ds : List Char) :
    holdsWord (cs ++ d :: ds) = (holdsWord cs || holdsWord ds) := by
  unfold holdsWord
  rw [Text.asciiLower, List.map_append, List.map_cons]
  exact contains_append_cons hd (by decide) _ _

theorem holdsWord_cons (hd : d.toLower ∉ "frame".toList) (cs : List Char) :
    holdsWord (d :: cs) = holdsWord cs := holdsWord_append_cons hd [] cs

theorem holdsWord_concat (hd : d.toLower ∉ "frame".toList) (cs : List Char) :
    holdsWord (cs ++ [d]) = holdsWord cs :=
  (holdsWord_append_cons hd cs []).trans (Bool.or_false _)

/-- Whether the word stands in a field. -/
def fieldHoldsWord (f : String × Json) : Bool :=
  holdsWord (Text.literal f.1) || holdsWord f.2.literal

theorem holdsWord_literalItems (vs : List Json) :
    holdsWord (Json.literalItems vs) = vs.any fun v => holdsWord v.literal := by
  induction vs with
  | nil => rfl
  | cons v vs ih =>
    cases vs with
    | nil => exact (Bool.or_false _).symm
    | cons w vs =>
      rw [Json.literalItems, holdsWord_append_cons (by decide), holdsWord_cons (by decide), ih]
      rfl

theorem holdsWord_literalFields (fs : Fields) :
    holdsWord (Json.literalFields fs) = fs.any fieldHoldsWord := by
  induction fs with
  | nil => rfl
  | cons f fs ih =>
    obtain ⟨k, v⟩ := f
    cases fs with
    | nil =>
      rw [Json.literalFields, holdsWord_append_cons (by decide), holdsWord_cons (by decide)]
      exact (Bool.or_false _).symm
    | cons g fs =>
      rw [Json.literalFields, holdsWord_append_cons (by decide), holdsWord_cons (by decide),
        holdsWord_append_cons (by decide), holdsWord_cons (by decide), ih, ← Bool.or_assoc]
      rfl

theorem holdsWord_literal_arr (vs : List Json) :
    holdsWord (Json.arr vs).literal = vs.any fun v => holdsWord v.literal := by
  rw [Json.literal, holdsWord_cons (by decide), holdsWord_concat (by decide),
    holdsWord_literalItems]

theorem holdsWord_literal_obj (fs : Fields) :
    holdsWord (Json.obj fs).literal = fs.any fieldHoldsWord := by
  rw [Json.literal, holdsWord_cons (by decide), holdsWord_concat (by decide),
    holdsWord_literalFields]

mutual

/-- The word stands in a value in whatever order its fields are shown. -/
theorem holdsWord_literal_sorted : ∀ v : Json, holdsWord v.sorted.literal = holdsWord v.literal
  | .arr vs => by
    rw [Json.sorted, holdsWord_literal_arr, holdsWord_literal_arr, holdsWord_sortedItems vs]
  | .obj fs => by
    have hperm := (Json.perm_sortedObject fs).any_eq (f := fieldHoldsWord)
    show holdsWord (Json.obj (sortedObject fs)).literal = _
    rw [holdsWord_literal_obj, holdsWord_literal_obj, hperm, List.any_map]
    exact fieldsHoldWord_sorted fs
  | .null | .bool _ | .int _ | .double _ | .str _ => rfl

theorem holdsWord_sortedItems : ∀ vs : List Json,
    ((Json.sortedItems vs).any fun v => holdsWord v.literal) = vs.any fun v => holdsWord v.literal
  | [] => rfl
  | v :: vs => by
    rw [Json.sortedItems, List.any_cons, List.any_cons, holdsWord_literal_sorted v,
      holdsWord_sortedItems vs]

theorem fieldsHoldWord_sorted : ∀ fs : List (String × Json),
    fs.any (fieldHoldsWord ∘ fun f => (f.1, f.2.sorted)) = fs.any fieldHoldsWord
  | [] => rfl
  | (k, v) :: fs => by
    rw [List.any_cons, List.any_cons, fieldsHoldWord_sorted fs, Function.comp, fieldHoldsWord,
      fieldHoldsWord, holdsWord_literal_sorted v]

end

theorem isFrameName_sorted (name : Json) : isFrameName name.sorted = isFrameName name := by
  have hshown : holdsWord name.sorted.shown = holdsWord name.shown := by
    cases name with
    | str s => rfl
    | arr vs => exact holdsWord_literal_sorted (.arr vs)
    | obj fs => exact holdsWord_literal_sorted (.obj fs)
    | null | bool | int | double => rfl
  rw [isFrameName, Json.isTruthy_sorted]
  exact congrArg (name.isTruthy && ·) hshown

/-! ### The frame -/

theorem isMainFrame_sorted (member : Json) : isMainFrame member.sorted = isMainFrame member := by
  cases member with
  | obj fs =>
    show (Json.isText (Fields.get (sortedObject fs) "type") frameKind
      && isFrameName (Fields.get (sortedObject fs) "name")) = _
    rw [get_sortedObject, get_sortedObject, Json.isText_sorted, isFrameName_sorted]
    rfl
  | _ => rfl

/-- No text is a frame. -/
theorem find?_isMainFrame_map_str {α : Type} (text : α → String) (xs : List α) :
    (xs.map fun x => Json.str (text x)).find? isMainFrame = none := by
  rw [List.find?_eq_none]
  intro v hv
  obtain ⟨x, -, rfl⟩ := List.mem_map.mp hv
  exact Bool.false_ne_true

/-- A walk through a value with sorted fields finds the same frame, though it meets the keys of an
object in another order. -/
theorem find?_walk_sorted (v : Json) :
    v.sorted.walk.map (List.find? isMainFrame)
      = (v.walk.map (List.find? isMainFrame)).map (Option.map Json.sorted) := by
  unfold Json.walk
  rw [Json.isTruthy_sorted]
  split
  · cases v with
    | arr vs =>
      show Except.ok ((Json.sortedItems vs).find? isMainFrame) = _
      rw [Json.sortedItems_eq_map, List.find?_map, Function.comp_def]
      simp only [isMainFrame_sorted]
      rfl
    | obj fs =>
      have hkeys := fun fs : Fields => find?_isMainFrame_map_str Prod.fst fs
      show Except.ok (((sortedObject fs).map _).find? isMainFrame)
        = Except.ok (((fs.map _).find? isMainFrame).map Json.sorted)
      rw [hkeys, hkeys]
      rfl
    | str s =>
      show Except.ok ((s.toList.map _).find? isMainFrame)
        = Except.ok (((s.toList.map _).find? isMainFrame).map Json.sorted)
      rw [find?_isMainFrame_map_str]
      rfl
    | null | bool | int | double => rfl
  · rfl

/-- The frame that was found in a walk. -/
def frameFound : Except Fault (Option Json) → Except DesignError Json
  | .error fault => .error (.fault fault)
  | .ok none => .error (.structural .noMainFrame)
  | .ok (some frame) => .ok frame

theorem frameFound_sorted (found : Except Fault (Option Json)) :
    frameFound (found.map (Option.map Json.sorted)) = (frameFound found).map Json.sorted := by
  cases found with
  | error fault => rfl
  | ok frame? => cases frame? <;> rfl

theorem mainFrame_eq_of_page {document : Fields} {page : Json} {pages : List Json}
    (h : document.get "children" = .arr (page :: pages)) :
    mainFrame document
      = frameFound ((page.fieldsOrEmpty.get "children").walk.map (List.find? isMainFrame)) := by
  simp only [mainFrame, h]
  cases hwalk : (page.fieldsOrEmpty.get "children").walk with
  | error fault => rfl
  | ok members =>
    show _ = frameFound (.ok (members.find? isMainFrame))
    cases hfound : members.find? isMainFrame with
    | none => simp only [hfound, frameFound]
    | some frame => simp only [hfound, frameFound]

theorem mainFrame_sorted (document : Fields) :
    mainFrame (sortedObject document) = (mainFrame document).map Json.sorted := by
  have hsorted := get_sortedObject document "children"
  cases hpages : document.get "children" with
  | arr pages =>
    rw [hpages] at hsorted
    cases pages with
    | nil =>
      rw [mainFrame, mainFrame, hsorted, hpages]
      rfl
    | cons page pages =>
      rw [mainFrame_eq_of_page hpages, mainFrame_eq_of_page hsorted, Json.fieldsOrEmpty_sorted,
        get_sortedObject, find?_walk_sorted, frameFound_sorted]
  | _ =>
    rw [hpages] at hsorted
    rw [mainFrame, mainFrame, hsorted, hpages]
    rfl

/-! ### The file -/

/-- The file with sorted fields in its document. -/
def sorted (file : DesignFile) : DesignFile := { file with document := sortedObject file.document }

theorem check_sorted (v : Json) : check v.sorted = sorted <$> check v := by
  cases v with
  | obj fs =>
    show DesignFile.mk <$> SourceNode.readOptional SourceNode.readText
        (Fields.get (sortedObject fs) "name")
      <*> SourceNode.readObject (Fields.get (sortedObject fs) "document") = _
    rw [get_sortedObject, get_sortedObject, SourceNode.readObject_sorted,
      SourceNode.readOptional_sorted_of_eq SourceNode.readText_sorted]
    rfl
  | _ =>
    exact congrArg (fun document => Checked.faulty (DesignFile.mk none document))
      Json.sortedObject_nil.symm

theorem read_sorted (v : Json) : read v.sorted = (read v).map sorted := by
  unfold read
  rw [Json.fieldsOrEmpty_sorted, get_sortedObject]
  cases v.fieldsOrEmpty.get "document" with
  | obj =>
    show (check v.sorted).toExcept.mapError _ = _
    rw [check_sorted, Checked.toExcept_map]
    cases (check v).toExcept <;> rfl
  | _ => rfl

theorem frame_sorted (file : DesignFile) :
    file.sorted.frame = file.frame.map (Tree.map SourceNode.sorted) := by
  unfold frame
  show (mainFrame (sortedObject file.document) >>= _) = _
  rw [mainFrame_sorted]
  cases mainFrame file.document with
  | error e => rfl
  | ok v =>
    show (SourceNode.readTree v.sorted).mapError _ = ((SourceNode.readTree v).mapError _).map _
    rw [SourceNode.readTree, SourceNode.readTree, SourceNode.read_sorted]
    cases SourceNode.read v <;> rfl

theorem root_sorted (frame : Tree SourceNode) :
    root (frame.map SourceNode.sorted) = (root frame).map Node.sorted := by
  cases frame with
  | node source children => exact Node.place_map_sorted _ _ _

/-- **The frame of a file with sorted fields is that of the file with sorted fields**, and both have
the same fault, if any. -/
theorem rootIn_sorted (v : Json) : rootIn v.sorted = (rootIn v).map (Tree.map Node.sorted) := by
  unfold rootIn
  rw [read_sorted]
  cases read v with
  | error e => rfl
  | ok file =>
    show (file.sorted.frame >>= _) = Except.map _ (file.frame >>= _)
    rw [frame_sorted]
    cases file.frame with
    | error e => rfl
    | ok frame => exact congrArg Except.ok (root_sorted frame)

end DesignFile

end FrameExport
