import FrameExport.DesignFile
import FrameExport.Proofs.Decimal.Grammar
import FrameExport.Proofs.Fallible
import FrameExport.Proofs.Node.Place
import FrameExport.Proofs.Node.Values
import Mathlib.Data.List.Forall2

/-!
# What placed nodes keep of a file

`Node.Keeps` says, field by field, that a placed node has what an object of the file says of it.  Most
fields may be null, which stands for a default (`SourceNode.OrNull`); a value of another kind has no
place in them.  What number a value stands for is told by `SourceNode.IsNumber`, without the way it is
read: an integer or a numeral stands for the double that it is rounded to.

Nodes that are read from a value and placed make a tree of the shape of the values that stand in the
place of nodes (`Node.related_place`); from this follows the headline, `Node.placed_keeps_values`:
nothing is lost, added or moved, and the point from which the tree is seen does not matter.
-/

namespace FrameExport

/-! ### Trees of one shape -/

namespace Tree

variable {α β γ : Type} {R : α → β → Prop}

/-- Trees of one shape, in which values at the same place are related. -/
inductive Related (R : α → β → Prop) : Tree α → Tree β → Prop
  | node {a : α} {b : β} {ts : List (Tree α)} {us : List (Tree β)} (hvalue : R a b)
      (hchildren : List.Forall₂ (Related R) ts us) : Related R (.node a ts) (.node b us)

mutual

/-- The values of related trees are related one by one in preorder. -/
theorem Related.preorder : ∀ {t : Tree α} {u : Tree β}, Related R t u →
    List.Forall₂ R t.preorder u.preorder
  | .node _ _, .node _ _, .node hvalue hchildren => .cons hvalue (forall₂_preorderAll hchildren)

theorem forall₂_preorderAll : ∀ {ts : List (Tree α)} {us : List (Tree β)},
    List.Forall₂ (Related R) ts us → List.Forall₂ R (preorderAll ts) (preorderAll us)
  | [], [], .nil => .nil
  | _ :: _, _ :: _, .cons hfirst hrest =>
    List.rel_append hfirst.preorder (forall₂_preorderAll hrest)

end

mutual

/-- Related trees are one tree where all that is looked at is the same in related values. -/
theorem Related.map_eq {f : α → γ} {g : β → γ} (h : ∀ a b, R a b → f a = g b) :
    ∀ {t : Tree α} {u : Tree β}, Related R t u → t.map f = u.map g
  | .node _ _, .node _ _, .node hvalue hchildren => by
    rw [map, map, h _ _ hvalue, mapAll_eq_of_forall₂ h hchildren]

theorem mapAll_eq_of_forall₂ {f : α → γ} {g : β → γ} (h : ∀ a b, R a b → f a = g b) :
    ∀ {ts : List (Tree α)} {us : List (Tree β)}, List.Forall₂ (Related R) ts us →
      mapAll f ts = mapAll g us
  | [], [], .nil => rfl
  | _ :: _, _ :: _, .cons hfirst hrest => by
    rw [mapAll, mapAll, hfirst.map_eq h, mapAll_eq_of_forall₂ h hrest]

end

end Tree

namespace SourceNode

/-! ### What values say -/

/-- The value is a text. -/
def IsText (v : Json) (s : String) : Prop := v = .str s

/-- The value is a number, or stands for one: a double for itself, an integer for the finite double
that it is rounded to, a truth value for one or zero, and a text for what it is the numeral of. -/
inductive IsNumber : Json → Double → Prop
  | double {x : Double} : IsNumber (.double x) x
  | int {n : Int} {x : Double} (hx : Double.Rounded (decide (n < 0)) (n.natAbs : ℚ) x)
    (hfinite : x.isFinite = true) : IsNumber (.int n) x
  | bool {b : Bool} {x : Double} (hx : Double.Rounded false (if b then 1 else 0) x) :
    IsNumber (.bool b) x
  | text {s : String} {x : Double} (hs : Numeral.IsFieldNumeral s.toList x) : IsNumber (.str s) x

/-- The value is an object. -/
def IsObject (v : Json) (fields : Fields) : Prop := v = .obj fields

/-- The value is an array of objects. -/
def IsObjects (v : Json) (objects : List Fields) : Prop := v = .arr (objects.map .obj)

/-- The value is an array of numbers. -/
def IsNumbers (v : Json) (xs : List Double) : Prop :=
  ∃ items, v = .arr items ∧ List.Forall₂ IsNumber items xs

/-- A side or corner of a box, which is zero when it is absent. -/
inductive IsExtent (fields : Fields) (key : String) : Double → Prop
  | absent (h : fields.lookup key = none) : IsExtent fields key .zero
  | number {v : Json} {x : Double} (h : fields.lookup key = some v) (hx : IsNumber v x) :
      IsExtent fields key x

/-- The value is an object with the sides and corners of a box. -/
def IsBox (v : Json) (box : Bounds) : Prop :=
  ∃ fields, v = .obj fields ∧ IsExtent fields "x" box.x ∧ IsExtent fields "y" box.y
    ∧ IsExtent fields "width" box.width ∧ IsExtent fields "height" box.height

/-- What a field says that takes a value or null: null stands for the default. -/
inductive OrNull {α : Type} (Is : Json → α → Prop) (default : α) : Json → α → Prop
  | null : OrNull Is default .null default
  | value {v : Json} {a : α} (h : Is v a) : OrNull Is default v a

/-- What a field says that need not say anything: null stands for nothing. -/
def Optionally {α : Type} (Is : Json → α → Prop) : Json → Option α → Prop :=
  OrNull (fun v a? => ∃ a, a? = some a ∧ Is v a) none

/-- The text of a value; null and any other value stand for the empty one. -/
def textOrEmpty : Json → String
  | .str s => s
  | _ => ""

/-- What a node is known by, as a value has it. -/
def labels (v : Json) : List String :=
  ["id", "name", "type"].map fun key => textOrEmpty ((v.fields?.getD []).get key)

theorem OrNull.textOrEmpty_eq {v : Json} {s : String} (h : OrNull IsText "" v s) :
    textOrEmpty v = s := by
  cases h with
  | null => rfl
  | value h => rw [show v = .str s from h, textOrEmpty]

end SourceNode

open SourceNode (OrNull Optionally IsText IsNumber IsObject IsObjects IsNumbers IsBox)

namespace Node

/-- The node has what an object of the file says of it. -/
structure Keeps (n : Node) (fields : Fields) : Prop where
  id : OrNull IsText "" (fields.get "id") n.id
  name : OrNull IsText "" (fields.get "name") n.name
  type : OrNull IsText "" (fields.get "type") n.type
  fills : OrNull IsObjects [] (fields.get "fills") n.fills
  strokes : OrNull IsObjects [] (fields.get "strokes") n.strokes
  effects : OrNull IsObjects [] (fields.get "effects") n.effects
  size : ∃ box, OrNull IsBox .empty (fields.get "absoluteBoundingBox") box
    ∧ n.width = box.width ∧ n.height = box.height
  strokeWeight : Optionally IsNumber (fields.get "strokeWeight") n.strokeWeight
  opacity : OrNull IsNumber .one (fields.get "opacity") n.opacity
  cornerRadius : Optionally IsNumber (fields.get "cornerRadius") n.cornerRadius
  cornerRadii : ∃ radii?, Optionally IsNumbers (fields.get "rectangleCornerRadii") radii?
    ∧ n.cornerRadii.map CornerRadii.toList
      = radii?.map fun radii => (radii ++ List.replicate 4 .zero).take 4
  isSome_text : n.text.isSome = true ↔ n.type = "TEXT"
  text : ∀ text, n.text = some text →
    OrNull IsText "" (fields.get "characters") text.characters
      ∧ OrNull IsObject [] (fields.get "style") text.style

/-- The value is an object, of which the node has what it says. -/
def KeepsValue (v : Json) (n : Node) : Prop := ∃ fields, v = .obj fields ∧ n.Keeps fields

/-- What a node is known by. -/
def labels (n : Node) : List String := [n.id, n.name, n.type]

end Node

namespace Checked

variable {α : Type}

theorem faults_all_eq_zero_iff {xs : List (Checked α)} :
    (all xs).faults = 0 ↔ ∀ x ∈ xs, x.faults = 0 := by
  induction xs with
  | nil => simp [all, sound]
  | cons x xs ih => rw [all, faults_seq, faults_map, Nat.add_eq_zero_iff, ih, List.forall_mem_cons]

end Checked

namespace SourceNode

variable {v : Json} {fields : Fields}

/-! ### Reading fields -/

/-- What is read as a number is one. -/
theorem isNumber_of_number? {x : Double} (h : number? v = some x) : IsNumber v x := by
  cases v with
  | int n =>
    obtain ⟨hrounded, hfinite⟩ := Double.rounded_of_ofInt? h
    exact .int hrounded hfinite
  | double y =>
    obtain rfl : y = x := Option.some.inj h
    exact .double
  | bool b =>
    refine .bool ?_
    rw [← (Option.some.inj h : (if b then Double.one else Double.zero) = x)]
    cases b with
    | true =>
      rw [if_pos rfl, if_pos rfl]
      exact Double.rounded_one
    | false =>
      rw [if_neg Bool.false_ne_true, if_neg Bool.false_ne_true]
      exact Double.rounded_zero false
  | str s => exact .text (Numeral.isFieldNumeral_of_readField h)
  | null | arr | obj => cases h

theorem isNumber_readNumber (h : (readNumber v).faults = 0) :
    IsNumber v (readNumber v).value := by
  unfold readNumber at h ⊢
  cases hnumber : number? v with
  | none => simp [hnumber, Checked.ofOption, Checked.faulty] at h
  | some x => exact isNumber_of_number? hnumber

theorem isText_readText (h : (readText v).faults = 0) : IsText v (readText v).value := by
  cases v with
  | str s => rfl
  | _ => cases h

theorem isObject_readObject (h : (readObject v).faults = 0) :
    IsObject v (readObject v).value := by
  cases v with
  | obj fields => rfl
  | _ => cases h

theorem orNull_readName (h : (readName v).faults = 0) :
    OrNull IsText "" v (readName v).value := by
  cases v with
  | null => exact .null
  | _ => exact .value (isText_readText h)

section

variable {α : Type} {Is : Json → α → Prop} {read : Json → Checked α}

theorem optionally_readOptional (hread : ∀ v, (read v).faults = 0 → Is v (read v).value)
    (h : (readOptional read v).faults = 0) : Optionally Is v (readOptional read v).value := by
  cases v with
  | null => exact .null
  | _ => exact .value ⟨_, rfl, hread _ h⟩

/-- What need not be said may have a default. -/
theorem Optionally.getD {a? : Option α} (h : Optionally Is v a?) (default : α) :
    OrNull Is default v (a?.getD default) := by
  cases h with
  | null => exact .null
  | value h =>
    obtain ⟨a, rfl, ha⟩ := h
    exact .value ha

theorem forall₂_all {items : List Json} (hread : ∀ v, (read v).faults = 0 → Is v (read v).value)
    (h : (Checked.all (items.map read)).faults = 0) :
    List.Forall₂ Is items (Checked.all (items.map read)).value := by
  rw [Checked.faults_all_eq_zero_iff, List.forall_mem_map] at h
  rw [Checked.value_all, List.map_map, List.forall₂_map_right_iff, List.forall₂_same]
  exact fun item hitem => hread item (h item hitem)

end

theorem isNumbers_readItems (h : (readItems readNumber v).faults = 0) :
    IsNumbers v (readItems readNumber v).value := by
  cases v with
  | arr items => exact ⟨items, rfl, forall₂_all (fun _ => isNumber_readNumber) h⟩
  | _ => cases h

theorem orNull_readList (h : (readList readObject v).faults = 0) :
    OrNull IsObjects [] v (readList readObject v).value := by
  cases v with
  | null => exact .null
  | arr items =>
    have hitems := forall₂_all (fun _ => isObject_readObject) h
    have heq : List.Forall₂ Eq items ((Checked.all (items.map readObject)).value.map Json.obj) :=
      List.forall₂_map_right_iff.mpr hitems
    rw [List.forall₂_eq_eq_eq] at heq
    exact .value (congrArg Json.arr heq)
  | _ => cases h

theorem isExtent_readExtent {key : String} (h : (readExtent fields key).faults = 0) :
    IsExtent fields key (readExtent fields key).value := by
  unfold readExtent at h ⊢
  split
  · exact .absent ‹_›
  · rename_i v hv
    rw [hv] at h
    exact .number hv (isNumber_readNumber h)

theorem isBox_readBounds (h : (readBounds v).faults = 0) : IsBox v (readBounds v).value := by
  cases v with
  | obj fields =>
    simp only [readBounds, Checked.faults_seq, Checked.faults_map, Nat.add_eq_zero_iff] at h
    obtain ⟨⟨⟨hx, hy⟩, hwidth⟩, hheight⟩ := h
    exact ⟨fields, rfl, isExtent_readExtent hx, isExtent_readExtent hy, isExtent_readExtent hwidth,
      isExtent_readExtent hheight⟩
  | _ => cases h

end SourceNode

namespace Node

variable {fields : Fields}

/-! ### Placed nodes -/

theorem isSome_textOf_iff (source : SourceNode) :
    (textOf source).isSome = true ↔ source.type = textKind := by
  rw [textOf]
  split
  · exact iff_of_true rfl ‹_›
  · exact iff_of_false Bool.false_ne_true ‹_›

theorem eq_of_textOf {source : SourceNode} {text : TextContent} (h : textOf source = some text) :
    text = ⟨source.characters.getD "", source.style.getD []⟩ := by
  rw [textOf] at h
  split at h
  · exact (Option.some.inj h).symm
  · cases h

open SourceNode in
/-- A node that is read without fault is placed with all that its object says, from wherever it is
seen. -/
theorem keeps_ofSource (x y : Double) (h : (readFields fields).faults = 0) :
    (ofSource x y (readFields fields).value).Keeps fields := by
  simp only [readFields, Checked.faults_seq, Checked.faults_map, Nat.add_eq_zero_iff] at h
  obtain ⟨⟨⟨⟨⟨⟨⟨⟨⟨⟨⟨⟨hid, hname⟩, htype⟩, hbounds⟩, hfills⟩, hstrokes⟩, hweight⟩, heffects⟩,
    hopacity⟩, hradius⟩, hradii⟩, hcharacters⟩, hstyle⟩ := h
  exact {
    id := orNull_readName hid
    name := orNull_readName hname
    type := orNull_readName htype
    fills := orNull_readList hfills
    strokes := orNull_readList hstrokes
    effects := orNull_readList heffects
    size := ⟨_, (optionally_readOptional (fun _ => isBox_readBounds) hbounds).getD .empty, rfl, rfl⟩
    strokeWeight := optionally_readOptional (fun _ => isNumber_readNumber) hweight
    opacity := (optionally_readOptional (fun _ => isNumber_readNumber) hopacity).getD .one
    cornerRadius := optionally_readOptional (fun _ => isNumber_readNumber) hradius
    cornerRadii := by
      refine ⟨_, optionally_readOptional (fun _ => isNumbers_readItems) hradii, ?_⟩
      show (Option.map CornerRadii.ofList _).map CornerRadii.toList = _
      rw [Option.map_map]
      exact congrArg (Option.map · _) (funext CornerRadii.toList_ofList)
    isSome_text := isSome_textOf_iff _
    text := by
      intro text htext
      rw [eq_of_textOf htext]
      exact ⟨(optionally_readOptional (fun _ => isText_readText) hcharacters).getD "",
        (optionally_readOptional (fun _ => isObject_readObject) hstyle).getD []⟩ }

/-- A node that keeps what a value says is known by the same texts. -/
theorem KeepsValue.labels_eq {v : Json} {n : Node} (h : KeepsValue v n) :
    SourceNode.labels v = n.labels := by
  obtain ⟨fields, rfl, hfields⟩ := h
  show [_, _, _] = [_, _, _]
  rw [← hfields.id.textOrEmpty_eq, ← hfields.name.textOrEmpty_eq, ← hfields.type.textOrEmpty_eq]
  rfl

open SourceNode (readLevels values) in
/-- Nodes that are read without fault are placed in the shape of the values they are read from, each
with all that its value says. -/
theorem related_place {levels : Nat} {v : Json} (h : (readLevels levels v).faults = 0) (x y : Double) :
    Tree.Related KeepsValue (values v) (place x y (readLevels levels v).value) := by
  induction levels generalizing v x y with
  | zero => cases h
  | succ levels ih =>
    cases v with
    | obj fields =>
      rw [readLevels, Checked.faults_seq, Checked.faults_map, Nat.add_eq_zero_iff] at h
      obtain ⟨hfields, hchildren⟩ := h
      rw [SourceNode.values_obj, readLevels, Checked.value_seq, Checked.value_map, place,
        placeAll_eq_map]
      refine .node ⟨fields, rfl, keeps_ofSource x y hfields⟩ ?_
      cases hvalue : Fields.get fields "children" with
      | null => exact .nil
      | arr items =>
        rw [hvalue, SourceNode.readList, Checked.faults_all_eq_zero_iff, List.forall_mem_map]
          at hchildren
        rw [SourceNode.valuesIn_arr, SourceNode.readList, Checked.value_all, List.map_map,
          List.map_map, List.forall₂_map_left_iff, List.forall₂_map_right_iff, List.forall₂_same]
        exact fun item hitem => ih (hchildren item hitem) _ _
      | _ =>
        rw [hvalue] at hchildren
        cases hchildren
    | _ => cases h

open SourceNode (readTree values) in
/-- **Nothing is lost, added or moved** where nodes are read from a value and placed.  From wherever
they are seen, they make a tree of the shape of the values that stand in the place of nodes, and are
known by the same texts; so they are in preorder, too, one by one, and there each of them has all that
its value says. -/
theorem placed_keeps_values {v : Json} {tree : Tree SourceNode} (h : readTree v = .ok tree)
    (x y : Double) :
    (place x y tree).map labels = (values v).map SourceNode.labels
      ∧ (place x y tree).preorder.map labels = (values v).preorder.map SourceNode.labels
      ∧ List.Forall₂ KeepsValue (values v).preorder (place x y tree).preorder := by
  rw [readTree, mapError_eq_ok_iff, SourceNode.read, Checked.toExcept_eq_ok_iff] at h
  obtain ⟨hfaults, rfl⟩ := h
  have hrelated := related_place hfaults x y
  have hshape : (values v).map SourceNode.labels = (place x y _).map labels :=
    hrelated.map_eq fun _ _ hkeeps => hkeeps.labels_eq
  have hpreorder := hrelated.preorder
  refine ⟨hshape.symm, ?_, hpreorder⟩
  rw [← Tree.preorder_map, ← hshape, Tree.preorder_map]

/-- A frame with a box, paints and radii, in which numbers stand as integers, doubles, truth values and
texts; it holds a text, and a node of which only the name is said, to be nothing. -/
def paintedFrame : Json :=
  .obj [("id", .str "1"), ("type", .str "FRAME"),
    ("absoluteBoundingBox", .obj [("x", .int (-7)), ("y", .double .half), ("width", .str "1_0e1"),
      ("height", .str " 25. ")]),
    ("fills", .arr [.obj [("type", .str "SOLID")], .obj []]), ("strokes", .arr [.obj []]),
    ("strokeWeight", .bool true), ("opacity", .str "0.5"), ("cornerRadius", .int 3),
    ("rectangleCornerRadii", .arr [.int 1, .double .half]),
    ("children", .arr [
      .obj [("id", .str "2"), ("type", .str "TEXT"), ("characters", .str "Hi"), ("opacity", .null),
        ("children", .null)],
      .obj [("name", .null)]])]

/-- The tree that a value holds, placed as seen from the origin. -/
def placed (v : Json) : List Node :=
  match SourceNode.readTree v with
  | .ok tree => (place .zero .zero tree).preorder
  | .error _ => []

theorem placed_keeps_values_paintedFrame :
    (placed paintedFrame).map labels = [["1", "", "FRAME"], ["2", "", "TEXT"], ["", "", ""]]
      ∧ List.Forall₂ KeepsValue (SourceNode.values paintedFrame).preorder (placed paintedFrame)
      ∧ (placed paintedFrame).map (·.width) = [.ofNat 100, .zero, .zero]
      ∧ (placed paintedFrame).map (·.opacity) = [.half, .one, .one] := by
  cases hread : SourceNode.readTree paintedFrame with
  | error e =>
    have hok : (SourceNode.readTree paintedFrame).isOk = true := by decide +kernel
    rw [hread] at hok
    cases hok
  | ok tree =>
    obtain ⟨-, hlabels, hkeeps⟩ := placed_keeps_values hread .zero .zero
    have hplaced : placed paintedFrame = (place .zero .zero tree).preorder := by
      rw [placed, hread]
    refine ⟨?_, hplaced ▸ hkeeps, by decide +kernel, by decide +kernel⟩
    rw [hplaced, hlabels]
    rfl

end Node

end FrameExport
