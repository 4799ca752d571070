import FrameExport.DesignFile
import FrameExport.Proofs.Fallible
import FrameExport.Proofs.Node.Seen

/-!
# Nodes of files that look alike

`Alike v w` says that two values hold trees of nodes that differ only in what the export does not look
at.  In each node, what the schema does not name may be anything, and what it names is the same but for
a few things (`SameLook`): the name is another text; the effects are other objects; before the first
visible paint there are other hidden ones, and behind it other paints, or all paints are hidden
(`SamePaints`); the box has other keys (`SameBounds`); and a node that is no text has other characters
and another typography.

If the nodes of one value are read without fault, so are those of a value alike, and what is seen of
them is the same (`readTree_of_alike`).
-/

namespace FrameExport

namespace SourceNode

/-! ### Parts of nodes -/

/-- A paint that says that it is not visible. -/
def IsHidden (paint : Fields) : Prop := paint.get "visible" = .bool false

theorem isVisible_eq_false_iff {paint : Fields} : Paint.isVisible paint = false ↔ IsHidden paint := by
  unfold Paint.isVisible IsHidden
  cases paint.get "visible" <;> simp [Json.isFalse]

instance (paint : Fields) : Decidable (IsHidden paint) := decidable_of_iff _ isVisible_eq_false_iff

/-- Paints of which the same one is the first visible one, or none of which is visible. -/
inductive SamePaints : Json → Json → Prop
  | same (v : Json) : SamePaints v v
  | hidden {hidden hidden' : List Fields} (hhidden : ∀ p ∈ hidden, IsHidden p)
      (hhidden' : ∀ p ∈ hidden', IsHidden p) :
      SamePaints (.arr (hidden.map .obj)) (.arr (hidden'.map .obj))
  | changed {hidden hidden' rest rest' : List Fields} {paint : Fields}
      (hhidden : ∀ p ∈ hidden, IsHidden p) (hhidden' : ∀ p ∈ hidden', IsHidden p)
      (hpaint : ¬ IsHidden paint) :
      SamePaints (.arr ((hidden ++ paint :: rest).map .obj))
        (.arr ((hidden' ++ paint :: rest').map .obj))

/-- Boxes with the same sides. -/
inductive SameBounds : Json → Json → Prop
  | same (v : Json) : SameBounds v v
  | changed {fs gs : Fields}
      (hsides : ∀ key ∈ ["x", "y", "width", "height"], gs.lookup key = fs.lookup key) :
      SameBounds (.obj fs) (.obj gs)

/-- The keys of a node whose values count as they are. -/
def plainKeys : List String :=
  ["id", "type", "strokeWeight", "opacity", "cornerRadius", "rectangleCornerRadii"]

/-- The fields of two nodes that look the same, apart from their children. -/
structure SameLook (fs gs : Fields) : Prop where
  plain : ∀ key ∈ plainKeys, gs.get key = fs.get key
  name : gs.get "name" = fs.get "name" ∨ ∃ s, gs.get "name" = .str s
  bounds : SameBounds (fs.get "absoluteBoundingBox") (gs.get "absoluteBoundingBox")
  fills : SamePaints (fs.get "fills") (gs.get "fills")
  strokes : SamePaints (fs.get "strokes") (gs.get "strokes")
  effects : gs.get "effects" = fs.get "effects"
    ∨ ∃ effects : List Fields, gs.get "effects" = .arr (effects.map .obj)
  characters : gs.get "characters" = fs.get "characters"
    ∨ fs.get "type" ≠ .str textKind ∧ ∃ s, gs.get "characters" = .str s
  style : gs.get "style" = fs.get "style"
    ∨ fs.get "type" ≠ .str textKind ∧ ∃ style, gs.get "style" = .obj style

/-- Fields with other children look the same. -/
theorem SameLook.of_get {fs gs : Fields} (h : ∀ key, key ≠ "children" → gs.get key = fs.get key) :
    SameLook fs gs where
  plain key hkey := h key fun hchildren => absurd (hchildren ▸ hkey) (by decide)
  name := .inl (h _ (by decide))
  bounds := by
    rw [h _ (by decide)]
    exact .same _
  fills := by
    rw [h _ (by decide)]
    exact .same _
  strokes := by
    rw [h _ (by decide)]
    exact .same _
  effects := .inl (h _ (by decide))
  characters := .inl (h _ (by decide))
  style := .inl (h _ (by decide))

/-- Values that hold trees of nodes that look the same. -/
inductive Alike : Json → Json → Prop
  | same (v : Json) : Alike v v
  | leaf {fs gs : Fields} (hlook : SameLook fs gs) (hnone : fs.get "children" = .null)
      (hnone' : gs.get "children" = .null) : Alike (.obj fs) (.obj gs)
  | node {fs gs : Fields} {vs ws : List Json} (hlook : SameLook fs gs)
      (hchildren : fs.get "children" = .arr vs) (hchildren' : gs.get "children" = .arr ws)
      (halike : List.Forall₂ Alike vs ws) : Alike (.obj fs) (.obj gs)

end SourceNode

/-! ### Reading parts -/

namespace Checked

variable {α β : Type} {f : α → β}

/-- If the first is without fault, so is the second, and a function has the same value for both. -/
def Agrees (f : α → β) (x y : Checked α) : Prop :=
  x.faults = 0 → y.faults = 0 ∧ f y.value = f x.value

theorem Agrees.refl (f : α → β) (x : Checked α) : Agrees f x x := fun h => ⟨h, rfl⟩

theorem agrees_all {read : Json → Checked α} {R : Json → Json → Prop} {vs ws : List Json}
    (h : List.Forall₂ R vs ws) (hread : ∀ v w, R v w → Agrees f (read v) (read w)) :
    Agrees (List.map f) (all (vs.map read)) (all (ws.map read)) := by
  induction h with
  | nil => exact Agrees.refl _ _
  | cons hvw _ ih =>
    intro hfaults
    simp only [List.map_cons, all, faults_seq, faults_map, Nat.add_eq_zero_iff] at hfaults
    obtain ⟨hfirst, hfirst'⟩ := hread _ _ hvw hfaults.1
    obtain ⟨hrest, hrest'⟩ := ih hfaults.2
    simp only [List.map_cons, all, faults_seq, faults_map, value_seq, value_map, hfirst, hrest,
      hfirst', hrest', Nat.add_zero, and_self]

end Checked

namespace SourceNode

open Checked (Agrees)

variable {fs gs : Fields} {v w : Json} {tree : Tree SourceNode}

theorem readList_map_obj (fs : List Fields) :
    readList readObject (.arr (fs.map .obj)) = Checked.sound fs := by
  show Checked.all ((fs.map Json.obj).map readObject) = _
  induction fs with
  | nil => rfl
  | cons f fs ih =>
    rw [List.map_cons, List.map_cons, Checked.all, ih]
    rfl

theorem firstVisible_append_cons {hidden rest : List Fields} {paint : Fields}
    (hhidden : ∀ p ∈ hidden, IsHidden p) (hpaint : ¬ IsHidden paint) :
    Paint.firstVisible (hidden ++ paint :: rest) = some paint := by
  refine List.find?_eq_some_iff_append.mpr ⟨?_, hidden, rest, rfl, fun p hp => ?_⟩
  · rw [← isVisible_eq_false_iff, Bool.not_eq_false] at hpaint
    exact hpaint
  · rw [isVisible_eq_false_iff.mpr (hhidden p hp)]
    rfl

theorem firstVisible_eq_none {hidden : List Fields} (hhidden : ∀ p ∈ hidden, IsHidden p) :
    Paint.firstVisible hidden = none := by
  refine List.find?_eq_none.mpr fun p hp => ?_
  rw [isVisible_eq_false_iff.mpr (hhidden p hp)]
  exact Bool.false_ne_true

theorem SamePaints.agrees (h : SamePaints v w) :
    Agrees (fun paints => (Paint.firstVisible paints).toList) (readList readObject v)
      (readList readObject w) := by
  cases h with
  | same v => exact Agrees.refl _ _
  | @hidden hidden hidden' hhidden hhidden' =>
    rw [readList_map_obj, readList_map_obj]
    intro _
    refine ⟨rfl, ?_⟩
    show (Paint.firstVisible hidden').toList = (Paint.firstVisible hidden).toList
    rw [firstVisible_eq_none hhidden, firstVisible_eq_none hhidden']
  | @changed hidden hidden' rest rest' paint hhidden hhidden' hpaint =>
    rw [readList_map_obj, readList_map_obj]
    intro _
    refine ⟨rfl, ?_⟩
    show (Paint.firstVisible (hidden' ++ paint :: rest')).toList
      = (Paint.firstVisible (hidden ++ paint :: rest)).toList
    rw [firstVisible_append_cons hhidden hpaint, firstVisible_append_cons hhidden' hpaint]

theorem SameBounds.readOptional_eq (h : SameBounds v w) :
    readOptional readBounds w = readOptional readBounds v := by
  cases h with
  | same v => rfl
  | changed hsides =>
    simp only [List.forall_mem_cons] at hsides
    obtain ⟨hx, hy, hwidth, hheight, -⟩ := hsides
    simp only [readOptional, readBounds, readExtent, hx, hy, hwidth, hheight]

/-- A value that is kept, or one of the right kind in its place, is read without fault. -/
theorem faults_eq_zero_of_kept {α : Type} {read : Json → Checked α} (h : (read v).faults = 0)
    (hw : w = v ∨ (read w).faults = 0) : (read w).faults = 0 := by
  rcases hw with rfl | hw
  · exact h
  · exact hw

/-- A type that is not the one of texts is read as another text. -/
theorem value_readName_ne {type : Json} (h : type ≠ .str textKind) :
    (readName type).value ≠ textKind := by
  have hempty : "" ≠ textKind := by decide
  cases type with
  | str s => exact fun hs => h (congrArg Json.str hs)
  | _ => exact hempty

/-- What a node that is no text has as characters or typography does not count. -/
theorem seen_eq_of_kept {α : Type} (read : Json → Checked (Option α)) {type : Json}
    (hw : w = v ∨ type ≠ .str textKind) :
    (if (readName type).value = textKind then (read w).value else none)
      = if (readName type).value = textKind then (read v).value else none := by
  rcases hw with rfl | htype
  · rfl
  · rw [if_neg (value_readName_ne htype), if_neg (value_readName_ne htype)]

theorem SameLook.agrees (h : SameLook fs gs) : Agrees seen (readFields fs) (readFields gs) := by
  have hplain := h.plain
  simp only [plainKeys, List.forall_mem_cons] at hplain
  obtain ⟨hid, htype, hweight, hopacity, hradius, hradii, -⟩ := hplain
  intro hfaults
  simp only [readFields, Checked.faults_seq, Checked.faults_map, Nat.add_eq_zero_iff] at hfaults
  obtain ⟨⟨⟨⟨⟨⟨⟨⟨⟨⟨⟨⟨fid, fname⟩, ftype⟩, fbounds⟩, ffills⟩, fstrokes⟩, fweight⟩, feffects⟩, fopacity⟩,
    fradius⟩, fradii⟩, fcharacters⟩, fstyle⟩ := hfaults
  obtain ⟨gfills, hfills⟩ := h.fills.agrees ffills
  obtain ⟨gstrokes, hstrokes⟩ := h.strokes.agrees fstrokes
  -- what takes the place of something kept is of the right kind
  have gname := faults_eq_zero_of_kept fname
    (h.name.imp_right fun ⟨s, hs⟩ => hs ▸ rfl)
  have geffects := faults_eq_zero_of_kept feffects
    (h.effects.imp_right fun ⟨effects, heffects⟩ => by rw [heffects, readList_map_obj]; rfl)
  have gcharacters := faults_eq_zero_of_kept fcharacters
    (h.characters.imp_right fun ⟨_, s, hs⟩ => hs ▸ rfl)
  have gstyle := faults_eq_zero_of_kept fstyle
    (h.style.imp_right fun ⟨_, style, hstyle⟩ => hstyle ▸ rfl)
  have hcharacters := seen_eq_of_kept (readOptional readText) (h.characters.imp_right And.left)
  have hstyle := seen_eq_of_kept (readOptional readObject) (h.style.imp_right And.left)
  constructor
  · simp only [readFields, Checked.faults_seq, Checked.faults_map, hid, htype, hweight, hopacity,
      hradius, hradii, h.bounds.readOptional_eq, fid, gname, ftype, fbounds, gfills, gstrokes, fweight,
      geffects, fopacity, fradius, fradii, gcharacters, gstyle]
  · simp only [readFields, Checked.value_seq, Checked.value_map, hid, htype, hweight, hopacity,
      hradius, hradii, h.bounds.readOptional_eq]
    simp only [seen, hfills, hstrokes, hcharacters, hstyle]

/-! ### Reading trees -/

/-- Nodes that look the same are read alike with their children. -/
theorem SameLook.agrees_readLevels {levels : Nat} (h : SameLook fs gs)
    (hchildren : Agrees (List.map (Tree.map seen))
      (readList (readLevels levels) (fs.get "children"))
      (readList (readLevels levels) (gs.get "children"))) :
    Agrees (Tree.map seen) (readLevels (levels + 1) (.obj fs)) (readLevels (levels + 1) (.obj gs)) := by
  intro hfaults
  simp only [readLevels, Checked.faults_seq, Checked.faults_map, Nat.add_eq_zero_iff] at hfaults
  obtain ⟨hnode, hnode'⟩ := h.agrees hfaults.1
  obtain ⟨hbelow, hbelow'⟩ := hchildren hfaults.2
  simp only [readLevels, Checked.faults_seq, Checked.faults_map, Checked.value_seq, Checked.value_map,
    hnode, hbelow, Tree.map, Tree.mapAll_eq_map, hnode', hbelow', Nat.add_zero, and_self]

/-- Values that look alike are read alike, on however many levels. -/
theorem Alike.agrees (h : Alike v w) (levels : Nat) :
    Agrees (Tree.map seen) (readLevels levels v) (readLevels levels w) := by
  induction levels generalizing v w with
  | zero => cases v <;> exact fun hfaults => absurd hfaults Nat.one_ne_zero
  | succ levels ih =>
    cases h with
    | same v => exact Agrees.refl _ _
    | leaf hlook hnone hnone' =>
      refine hlook.agrees_readLevels ?_
      rw [hnone, hnone']
      exact Agrees.refl _ _
    | node hlook hchildren hchildren' halike =>
      refine hlook.agrees_readLevels ?_
      rw [hchildren, hchildren']
      exact Checked.agrees_all halike fun _ _ hvw => ih hvw

/-- The nodes of a value that looks alike are read too, and what is seen of them is the same. -/
theorem readTree_of_alike (h : Alike v w) (htree : readTree v = .ok tree) :
    ∃ tree', readTree w = .ok tree' ∧ tree'.map seen = tree.map seen := by
  rw [readTree, mapError_eq_ok_iff, SourceNode.read, Checked.toExcept_eq_ok_iff] at htree
  obtain ⟨hfaults, rfl⟩ := htree
  obtain ⟨hfaults', hvalue⟩ := h.agrees maxLevels hfaults
  refine ⟨_, ?_, hvalue⟩
  rw [readTree, mapError_eq_ok_iff, SourceNode.read, Checked.toExcept_eq_ok_iff]
  exact ⟨hfaults', rfl⟩

end SourceNode

end FrameExport
