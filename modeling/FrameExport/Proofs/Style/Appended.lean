import FrameExport.Proofs.Fallible
import FrameExport.Proofs.Page.Boxes
import FrameExport.Proofs.Style.Collection
import FrameExport.Stylesheet.Basic
import Mathlib.Data.List.Induction

/-!
# Styles of a forest with nodes behind it

If the preorder of a forest begins with that of another, then so do the tables of its registry: what
asks for a style first keeps asking for it first (`StyleRegistry.prefix_entries_ofForest`).  A node of
the smaller forest therefore finds the same classes in both registries (`classOf?_ofForest_eq`), its
box is the same (`Node.box_ofForest_eq`), and the rules of the smaller style sheet stand in the larger
one in their order (`Stylesheet.rules_sublist`).
-/

namespace FrameExport

namespace Descriptor

variable {ds es : List Descriptor}

/-- What comes later does not occur first, but behind. -/
theorem prefix_firstOccurrences (h : ds <+: es) : firstOccurrences ds <+: firstOccurrences es := by
  obtain ⟨more, rfl⟩ := h
  induction more using List.reverseRecOn with
  | nil => simp only [List.append_nil, List.prefix_rfl]
  | append_singleton more d ih =>
    rw [← List.append_assoc, firstOccurrences_concat]
    split
    · exact ih
    · exact ih.trans (List.prefix_append _ _)

end Descriptor

namespace StyleTable

variable {table later : StyleTable} {key : String} {entry : StyleEntry}

theorem prefix_numbered (kind : StyleKind) {ds es : List Descriptor} (h : ds <+: es) :
    numbered kind ds <+: numbered kind es := by
  obtain ⟨more, rfl⟩ := h
  rw [numbered, numbered, List.mapIdx_append]
  exact List.prefix_append _ _

/-- What is found in a table is found in one with more entries behind. -/
theorem get?_of_prefix_entries (h : table.entries <+: later.entries) (hget : table.get? key = some entry) :
    later.get? key = some entry := by
  obtain ⟨more, hmore⟩ := h
  rw [get?, ← hmore, List.find?_append, show table.entries.find? _ = some entry from hget]
  rfl

end StyleTable

namespace StyleRegistry

variable {forest forest' : List (Tree Node)} {kind : StyleKind} {n : Node} {d : Descriptor}

/-- The table of the smaller forest stands in front of that of the larger one. -/
theorem prefix_entries_ofForest (h : Tree.preorderAll forest <+: Tree.preorderAll forest')
    (kind : StyleKind) :
    ((ofForest forest).table kind).entries <+: ((ofForest forest').table kind).entries := by
  rw [table_ofForest, table_ofForest]
  exact StyleTable.prefix_numbered kind
    (Descriptor.prefix_firstOccurrences (h.filterMap (Node.descriptor? kind)))

/-- What a node of the smaller forest asks for has the same class in both registries. -/
theorem classOf?_ofForest_eq (h : Tree.preorderAll forest <+: Tree.preorderAll forest')
    (hn : n ∈ Tree.preorderAll forest) (hd : n.descriptor? kind = some d) :
    (ofForest forest').classOf? d = (ofForest forest).classOf? d := by
  obtain ⟨i, e, -, -, hget, -⟩ := exists_entry hn hd
  rw [classOf?_eq hd, classOf?_eq hd, hget,
    StyleTable.get?_of_prefix_entries (prefix_entries_ofForest h kind) hget]

end StyleRegistry

namespace Node

variable {registry registry' : StyleRegistry} {n : Node}

/-- What a node asks for has the same classes in both registries. -/
def SameClasses (registry registry' : StyleRegistry) (n : Node) : Prop :=
  ∀ kind d, n.descriptor? kind = some d → registry'.classOf? d = registry.classOf? d

theorem SameClasses.bind_classOf? (h : n.SameClasses registry registry') (kind : StyleKind) :
    (n.descriptor? kind).bind registry'.classOf? = (n.descriptor? kind).bind registry.classOf? :=
  Option.bind_congr fun d hd => h kind d hd

theorem SameClasses.areaClasses_eq (h : n.SameClasses registry registry') :
    n.areaClasses registry' = n.areaClasses registry := by
  have hfill : n.fillDescriptor?.bind registry'.classOf? = n.fillDescriptor?.bind registry.classOf? :=
    h.bind_classOf? .fill
  have hstroke : n.strokeDescriptor?.bind registry'.classOf?
      = n.strokeDescriptor?.bind registry.classOf? := h.bind_classOf? .stroke
  rw [areaClasses, areaClasses, fillClass?, fillClass?, strokeClass?, strokeClass?, hfill, hstroke]

/-- A node has one box wherever its classes are the same. -/
theorem SameClasses.box_eq (h : n.SameClasses registry registry') :
    n.box registry' = n.box registry := by
  have htext : n.textDescriptor?.bind registry'.classOf? = n.textDescriptor?.bind registry.classOf? :=
    h.bind_classOf? .text
  have hclass : n.textClass? registry' = n.textClass? registry := htext
  rw [box, box, h.areaClasses_eq, hclass]

/-- A node of a forest has the same classes when further nodes come behind in the preorder. -/
theorem sameClasses_ofForest {forest forest' : List (Tree Node)}
    (h : Tree.preorderAll forest <+: Tree.preorderAll forest') (hn : n ∈ Tree.preorderAll forest) :
    n.SameClasses (.ofForest forest) (.ofForest forest') :=
  fun _ _ hd => StyleRegistry.classOf?_ofForest_eq h hn hd

end Node

/-! ### The page -/

namespace Node

variable {registry registry' : StyleRegistry} {node : Node} {children added : List (Tree Node)}

/-- The boxes of trees whose nodes have the same classes. -/
theorem boxesAll_eq (h : ∀ n ∈ Tree.preorderAll children, n.SameClasses registry registry') :
    boxesAll registry' children = boxesAll registry children := by
  have hmap := boxesAll_mapAll (f := fun n => n) children fun n hn => ⟨(h n hn).box_eq, rfl⟩
  rwa [Tree.mapAll_id'] at hmap

/-- The section of a root with further trees behind its children has further boxes at the end. -/
theorem pageSection_append {s s' : Section}
    (hsame : ∀ n ∈ (Tree.node node children).preorder, n.SameClasses registry registry')
    (h : pageSection registry (.node node children) = .ok s)
    (h' : pageSection registry' (.node node (children ++ added)) = .ok s') :
    ∃ more, s' = { s with boxes := s.boxes ++ more } := by
  rw [Tree.preorder, List.forall_mem_cons] at hsame
  obtain ⟨boxes, hboxes, h⟩ := bind_eq_ok_iff.mp h
  obtain ⟨boxes', hboxes', h'⟩ := bind_eq_ok_iff.mp h'
  have happend : (boxesAll registry' (children ++ added)) = .ok boxes' := hboxes'
  rw [boxesAll_append, boxesAll_eq hsame.2, show boxesAll registry children = .ok boxes from hboxes]
    at happend
  obtain ⟨first, hfirst, happend⟩ := bind_eq_ok_iff.mp happend
  obtain ⟨more, -, happend⟩ := bind_eq_ok_iff.mp happend
  refine ⟨more, ?_⟩
  rw [← Except.ok.inj h, ← Except.ok.inj h', ← Except.ok.inj happend, ← Except.ok.inj hfirst]
  show Section.mk _ ("page" :: node.areaClasses registry') _ _ = _
  rw [hsame.1.areaClasses_eq]
  rfl

end Node

/-! ### The style sheet -/

/-- The rules for the styles of a registry stand in the same order among those of a registry with more
entries in each table. -/
theorem Stylesheet.rules_sublist {registry registry' : StyleRegistry} {sheet sheet' : Stylesheet}
    (h : ∀ kind, (registry.table kind).entries <+: (registry'.table kind).entries)
    (hsheet : ofRegistry registry = .ok sheet) (hsheet' : ofRegistry registry' = .ok sheet') :
    sheet.rules.Sublist sheet'.rules := by
  obtain ⟨texts, htexts, hsheet⟩ := bind_eq_ok_iff.mp hsheet
  obtain ⟨fills, hfills, hsheet⟩ := bind_eq_ok_iff.mp hsheet
  obtain ⟨strokes, hstrokes, hsheet⟩ := bind_eq_ok_iff.mp hsheet
  obtain ⟨texts', htexts', hsheet'⟩ := bind_eq_ok_iff.mp hsheet'
  obtain ⟨fills', hfills', hsheet'⟩ := bind_eq_ok_iff.mp hsheet'
  obtain ⟨strokes', hstrokes', hsheet'⟩ := bind_eq_ok_iff.mp hsheet'
  rw [← Except.ok.inj hsheet, ← Except.ok.inj hsheet']
  -- the new rules of a kind come behind the old ones of that kind
  have htext : texts <+: texts' := prefix_mapM (h .text) htexts htexts'
  have hfill : fills <+: fills' := prefix_mapM (h .fill) hfills hfills'
  have hstroke : strokes <+: strokes' := prefix_mapM (h .stroke) hstrokes hstrokes'
  exact (htext.sublist.append hfill.sublist).append hstroke.sublist

end FrameExport
