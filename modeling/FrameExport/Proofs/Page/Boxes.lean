import FrameExport.Page.Writer
import FrameExport.Proofs.Fallible
import FrameExport.Proofs.Node.Place
import FrameExport.Proofs.Paint.Usable
import FrameExport.Proofs.Tree
import Mathlib.Data.List.Forall2

/-!
# The boxes of a page

`Node.shown` lists the nodes of a tree that get a box, a node before those below it; nothing below a
text is shown.  The boxes of a page are those of the shown nodes one by one, in the same order
(`Node.boxes_forall₂`), and `Node.box_eq_ok` says what is known of each.

The classes of an element are read back from its text by splitting it at blanks
(`tokens_eq`).
-/

namespace FrameExport

/-! ### Class tokens -/

/-- The class tokens of an element, read from the text of its classes. -/
def tokens (classes : List String) : List String :=
  ((writeClasses classes).splitOn ' ').map String.ofList

/-- Classes without blanks are read back as they are. -/
theorem tokens_eq {classes : List String} (hne : classes ≠ [])
    (hblank : ∀ c ∈ classes, ' ' ∉ c.toList) : tokens classes = classes := by
  rw [tokens, writeClasses, List.splitOn_intercalate]
  · rw [List.map_map]
    exact (List.map_congr_left fun c _ => String.ofList_toList).trans (List.map_id _)
  · intro cs hcs
    obtain ⟨c, hc, rfl⟩ := List.mem_map.mp hcs
    exact hblank c hc
  · simpa using hne

namespace Node

variable {registry : StyleRegistry} {n : Node}

/-! ### Shown nodes -/

mutual

/-- The nodes of a tree that get a box, each before those below it. -/
def shown : Tree Node → List Node
  | .node node children => node :: if node.isText then [] else shownAll children

/-- The nodes of several trees that get a box. -/
def shownAll : List (Tree Node) → List Node
  | [] => []
  | t :: ts => shown t ++ shownAll ts

end

mutual

theorem mem_preorder_of_mem_shown :
    ∀ {t : Tree Node}, n ∈ shown t → n ∈ t.preorder
  | .node node children, h => by
    rw [Tree.preorder]
    rcases List.mem_cons.mp h with rfl | hbelow
    · exact List.mem_cons_self
    · split at hbelow
      · cases hbelow
      · exact List.mem_cons_of_mem _ (mem_preorderAll_of_mem_shownAll hbelow)

theorem mem_preorderAll_of_mem_shownAll :
    ∀ {ts : List (Tree Node)}, n ∈ shownAll ts → n ∈ Tree.preorderAll ts
  | [], h => by cases h
  | t :: ts, h => by
    rw [Tree.preorderAll, List.mem_append]
    exact (List.mem_append.mp h).imp mem_preorder_of_mem_shown mem_preorderAll_of_mem_shownAll

end

/-! ### Boxes of shown nodes -/

/-- A box has the identifier of its node, and the class of a box and of the styles of its node. -/
theorem box_eq_ok {b : Box} (h : n.box registry = .ok b) :
    b.id = n.id
      ∧ b.classes = "node" :: (n.areaClasses registry ++ (n.textClass? registry).toList) := by
  unfold box at h
  cases htext : n.textContent? with
  | some text =>
    simp only [htext] at h
    obtain ⟨p, -, h⟩ := bind_eq_ok_iff.mp h
    rw [← Except.ok.inj h]
    exact ⟨rfl, rfl⟩
  | none =>
    simp only [htext] at h
    rw [← Except.ok.inj h]
    -- a node without characters asks for no typography
    have hclass : n.textClass? registry = none := by
      rw [textClass?, textDescriptor?, htext]
      rfl
    rw [hclass]
    exact ⟨rfl, by simp⟩

/-- A box has the declarations of its node, and that of a text centres its paragraph. -/
theorem box_cases {b : Box} (h : n.box registry = .ok b) :
    (n.textContent? = none ∧ b.style = n.boxDeclarations ∧ b.paragraph = none)
      ∨ ∃ text p, n.textContent? = some text ∧ n.paragraph text = .ok p
        ∧ b.style = n.boxDeclarations ++ centring ∧ b.paragraph = some p := by
  unfold box at h
  cases htext : n.textContent? with
  | none =>
    simp only [htext] at h
    rw [← Except.ok.inj h]
    exact Or.inl ⟨rfl, rfl, rfl⟩
  | some text =>
    simp only [htext] at h
    obtain ⟨p, hp, h⟩ := bind_eq_ok_iff.mp h
    rw [← Except.ok.inj h]
    exact Or.inr ⟨text, p, rfl, hp, rfl, rfl⟩

/-- A text takes the colour of its first visible fill, which is looked at only if it is solid. -/
theorem returns_textColor_iff :
    Returns n.textColor ↔ ∀ paint, Paint.firstVisible n.fills = some paint →
      Paint.isSolid paint = true → Paint.SolidUsable paint := by
  unfold textColor
  cases Paint.firstVisible n.fills with
  | none =>
    refine iff_of_true (returns_ok _) ?_
    rintro paint ⟨⟩
  | some paint =>
    simp only [Option.some.injEq, forall_eq']
    split
    · rw [returns_map_iff, Paint.returns_color_iff]
    · rename_i hsolid
      exact iff_of_true (returns_ok _) fun h => absurd h hsolid

/-- The box of a node can be made if it has no text, or the colour of its text can be used. -/
theorem returns_box_iff :
    Returns (n.box registry) ↔ (n.isText = true → Returns n.textColor) := by
  unfold box isText
  cases n.textContent? with
  | none => simp
  | some text =>
    simp only [Option.isSome_some, forall_const]
    rw [returns_bind_of_returns fun _ => returns_pure _, paragraph,
      returns_bind_of_returns fun _ => returns_pure _]

mutual

/-- The boxes of a tree are those of its shown nodes one by one. -/
theorem boxes_forall₂ : ∀ {t : Tree Node} {b : Tree Box}, boxes registry t = .ok b →
    List.Forall₂ (fun n b => n.box registry = .ok b) (shown t) b.preorder
  | .node node children, b, h => by
    rw [boxes] at h
    obtain ⟨own, hown, h⟩ := bind_eq_ok_iff.mp h
    rw [shown]
    split at h
    -- below a text neither boxes are made nor nodes shown
    · rename_i htext
      rw [← Except.ok.inj h, if_pos htext]
      exact .cons hown .nil
    · rename_i htext
      obtain ⟨below, hbelow, h⟩ := bind_eq_ok_iff.mp h
      rw [← Except.ok.inj h, if_neg htext]
      exact .cons hown (boxesAll_forall₂ hbelow)

theorem boxesAll_forall₂ : ∀ {ts : List (Tree Node)} {bs : List (Tree Box)},
    boxesAll registry ts = .ok bs →
      List.Forall₂ (fun n b => n.box registry = .ok b) (shownAll ts) (Tree.preorderAll bs)
  | [], bs, h => by
    rw [← Except.ok.inj h]
    exact .nil
  | t :: ts, bs, h => by
    rw [boxesAll] at h
    obtain ⟨first, hfirst, h⟩ := bind_eq_ok_iff.mp h
    obtain ⟨rest, hrest, h⟩ := bind_eq_ok_iff.mp h
    rw [← Except.ok.inj h]
    exact List.rel_append (boxes_forall₂ hfirst) (boxesAll_forall₂ hrest)

end

mutual

/-- The boxes of a tree can be made if that of every shown node can. -/
theorem returns_boxes_iff :
    ∀ {t : Tree Node}, Returns (boxes registry t) ↔ ∀ n ∈ shown t, Returns (n.box registry)
  | .node node children => by
    rw [boxes, shown, List.forall_mem_cons]
    apply returns_bind_iff_and
    intro box
    split
    · exact iff_of_true (returns_pure _) fun n hn => absurd hn List.not_mem_nil
    · rw [returns_bind_of_returns fun _ => returns_pure _]
      exact returns_boxesAll_iff

theorem returns_boxesAll_iff :
    ∀ {ts : List (Tree Node)},
      Returns (boxesAll registry ts) ↔ ∀ n ∈ shownAll ts, Returns (n.box registry)
  | [] => by
    rw [boxesAll, shownAll]
    exact iff_of_true (returns_ok _) fun n hn => absurd hn List.not_mem_nil
  | t :: ts => by
    rw [boxesAll, shownAll, List.forall_mem_append, ← returns_boxes_iff]
    apply returns_bind_iff_and
    intro first
    rw [returns_bind_of_returns fun _ => returns_pure _]
    exact returns_boxesAll_iff

end

/-! ### Boxes of other nodes -/

variable {f : Node → Node} {registry' : StyleRegistry}

mutual

/-- Changed nodes have the same boxes, if each of them has the same box and is a text or not as
before. -/
theorem boxes_map : ∀ t : Tree Node,
    (∀ n ∈ t.preorder, (f n).box registry' = n.box registry ∧ (f n).isText = n.isText) →
      boxes registry' (t.map f) = boxes registry t
  | .node node children, h => by
    rw [Tree.preorder, List.forall_mem_cons] at h
    rw [Tree.map, boxes, boxes, h.1.1, h.1.2, boxesAll_mapAll children h.2]

theorem boxesAll_mapAll : ∀ ts : List (Tree Node),
    (∀ n ∈ Tree.preorderAll ts, (f n).box registry' = n.box registry ∧ (f n).isText = n.isText) →
      boxesAll registry' (Tree.mapAll f ts) = boxesAll registry ts
  | [], _ => rfl
  | t :: ts, h => by
    rw [Tree.preorderAll, List.forall_mem_append] at h
    rw [Tree.mapAll, boxesAll, boxesAll, boxes_map t h.1, boxesAll_mapAll ts h.2]

end

/-- A changed root has the same section, if its nodes have the same boxes and it keeps what its section
shows of it. -/
theorem pageSection_map {root : Tree Node}
    (hboxes : ∀ n ∈ root.preorder, (f n).box registry' = n.box registry ∧ (f n).isText = n.isText)
    (hid : (f root.value).id = root.value.id)
    (hclasses : (f root.value).areaClasses registry' = root.value.areaClasses registry)
    (hstyle : (f root.value).sectionDeclarations = root.value.sectionDeclarations) :
    pageSection registry' (root.map f) = pageSection registry root := by
  obtain ⟨node, children⟩ := root
  rw [Tree.preorder, List.forall_mem_cons] at hboxes
  simp only [Tree.value] at hid hclasses hstyle
  simp only [pageSection, Tree.map, Tree.value, Tree.children, hid, hclasses, hstyle,
    boxesAll_mapAll children hboxes.2]

theorem boxesAll_append (ts us : List (Tree Node)) :
    boxesAll registry (ts ++ us) = do
      let first ← boxesAll registry ts
      return first ++ (← boxesAll registry us) := by
  induction ts with
  | nil =>
    show _ = (boxesAll registry us >>= fun rest => pure rest)
    rw [bind_pure]
    rfl
  | cons t ts ih =>
    rw [List.cons_append, boxesAll, boxesAll, ih]
    simp only [bind_assoc, pure_bind, List.cons_append]

end Node

/-- The page of a root is that of another one with the same section. -/
theorem Page.ofForest_singleton_congr {title : String} {registry registry' : StyleRegistry}
    {root root' : Tree Node}
    (h : Node.pageSection registry' root' = Node.pageSection registry root) :
    ofForest title registry' [root'] = ofForest title registry [root] := by
  have hsections : [root'].mapM (Node.pageSection registry')
      = [root].mapM (Node.pageSection registry) := by
    rw [List.mapM_cons, List.mapM_cons, h]
    rfl
  rw [ofForest, ofForest, hsections]

end FrameExport
