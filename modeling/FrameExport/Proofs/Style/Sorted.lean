import FrameExport.Proofs.Node.Sorted
import FrameExport.Proofs.Style.Collection

/-!
# Styles with sorted fields

The key of a style does not depend on the order of fields.  So the nodes with sorted fields ask for
the same styles under the same keys, and the registry of a forest with sorted fields is that of the
forest with sorted fields in its payloads (`StyleRegistry.ofForest_mapAll_sorted`).
-/

namespace FrameExport

open Json (sortedObject)

theorem Json.canonical_sorted (v : Json) : v.sorted.canonical = v.canonical :=
  Json.canonical_eq_canonical_iff.mpr (Json.reordered_sorted v).symm

theorem Paint.firstVisible_sorted (paints : List Fields) :
    firstVisible (paints.map sortedObject) = (firstVisible paints).map sortedObject := by
  have hvisible : isVisible ∘ sortedObject = isVisible := by
    funext paint
    rw [Function.comp, isVisible, Json.get_sortedObject, Json.isFalse_sorted]
    rfl
  rw [firstVisible, List.find?_map, hvisible]
  rfl

/-! ### Descriptors -/

/-- The descriptor with sorted fields in what the style consists of. -/
def Descriptor.sorted (d : Descriptor) : Descriptor := { d with payload := d.payload.sorted }

namespace Node

variable {n : Node}

theorem descriptor?_sorted (kind : StyleKind) (n : Node) :
    n.sorted.descriptor? kind = (n.descriptor? kind).map Descriptor.sorted := by
  have hvalue : ∀ fields : Fields,
      (Json.obj (sortedObject fields)).canonical = (Json.obj fields).canonical :=
    fun fields => Json.canonical_sorted (.obj fields)
  cases kind with
  | text =>
    have htext : ∀ text : TextContent, Descriptor.text (.obj text.sorted.style)
        = (Descriptor.text (.obj text.style)).sorted :=
      fun text => congrArg (Descriptor.mk .text · _ _) (hvalue text.style)
    show n.sorted.textDescriptor? = n.textDescriptor?.map _
    rw [textDescriptor?, textDescriptor?, textContent?_sorted, Option.map_map, Option.map_map]
    exact congrArg (Option.map · _) (funext htext)
  | fill =>
    have hfill : ∀ paint, Descriptor.fill (sortedObject paint) = (Descriptor.fill paint).sorted :=
      fun paint => congrArg (Descriptor.mk .fill · _ _) (hvalue paint)
    show n.sorted.fillDescriptor? = n.fillDescriptor?.map _
    have hfills : Paint.firstVisible n.sorted.fills
        = (Paint.firstVisible n.fills).map sortedObject := Paint.firstVisible_sorted n.fills
    rw [fillDescriptor?, fillDescriptor?, hfills, Option.map_map, Option.map_map]
    exact congrArg (Option.map · _) (funext hfill)
  | stroke =>
    have hstroke : ∀ paint weight, Descriptor.stroke (sortedObject paint) weight
        = (Descriptor.stroke paint weight).sorted := by
      intro paint weight
      have hpaint := (Json.reordered_sorted (.obj paint)).symm
      have hkey := Json.canonical_eq_canonical_iff.mpr
        (reordered_strokeKey_iff.mpr ⟨hpaint, Eq.refl weight⟩)
      exact congrArg (Descriptor.mk .stroke · _ _) hkey
    show n.sorted.strokeDescriptor? = n.strokeDescriptor?.map _
    have hstrokes : Paint.firstVisible n.sorted.strokes
        = (Paint.firstVisible n.strokes).map sortedObject := Paint.firstVisible_sorted n.strokes
    have hweight : n.sorted.visibleWeight? = n.visibleWeight? := rfl
    rw [strokeDescriptor?, strokeDescriptor?, hstrokes, hweight]
    cases Paint.firstVisible n.strokes with
    | none => rfl
    | some paint =>
      cases n.visibleWeight? with
      | none => rfl
      | some weight => exact congrArg some (hstroke paint weight)

end Node

/-! ### Tables -/

/-- The entry with sorted fields in what the style consists of. -/
def StyleEntry.sorted (entry : StyleEntry) : StyleEntry :=
  { entry with payload := entry.payload.sorted }

theorem Descriptor.firstOccurrences_map_sorted (ds : List Descriptor) :
    firstOccurrences (ds.map sorted) = (firstOccurrences ds).map sorted := by
  induction ds with
  | nil => rfl
  | cons d ds ih =>
    rw [List.map_cons, firstOccurrences, firstOccurrences, List.map_cons, ih, List.filter_map]
    rfl

namespace StyleTable

/-- The table with sorted fields in its entries. -/
def sorted (table : StyleTable) : StyleTable :=
  { table with entries := table.entries.map StyleEntry.sorted }

theorem numbered_map_sorted (kind : StyleKind) (ds : List Descriptor) :
    numbered kind (ds.map Descriptor.sorted) = (numbered kind ds).map StyleEntry.sorted := by
  apply List.ext_getElem?
  intro i
  simp only [numbered, List.getElem?_map, List.getElem?_mapIdx, Option.map_map]
  rfl

theorem get?_sorted (table : StyleTable) (key : String) :
    table.sorted.get? key = (table.get? key).map StyleEntry.sorted := by
  rw [get?, sorted, List.find?_map]
  rfl

end StyleTable

namespace StyleRegistry

/-- The registry with sorted fields in its entries. -/
def sorted (registry : StyleRegistry) : StyleRegistry :=
  ⟨registry.texts.sorted, registry.fills.sorted, registry.strokes.sorted⟩

theorem table_sorted (registry : StyleRegistry) (kind : StyleKind) :
    registry.sorted.table kind = (registry.table kind).sorted := by
  cases kind <;> rfl

theorem summary_sorted (registry : StyleRegistry) : registry.sorted.summary = registry.summary := by
  simp [summary, sorted, StyleTable.sorted]

/-- A style has the same class with sorted fields. -/
theorem classOf?_sorted (registry : StyleRegistry) (d : Descriptor) :
    registry.sorted.classOf? d.sorted = registry.classOf? d := by
  have hkey : d.sorted.key = d.key := rfl
  have hkind : d.sorted.kind = d.kind := rfl
  rw [classOf?, classOf?, hkind, hkey, table_sorted, StyleTable.get?_sorted, Option.map_map]
  rfl

/-- The registry of a forest with sorted fields. -/
theorem ofForest_mapAll_sorted (forest : List (Tree Node)) :
    ofForest (Tree.mapAll Node.sorted forest) = (ofForest forest).sorted := by
  have htable : ∀ kind, (ofForest (Tree.mapAll Node.sorted forest)).table kind
      = (ofForest forest).sorted.table kind := by
    intro kind
    have hall :
        (Tree.preorderAll (Tree.mapAll Node.sorted forest)).filterMap (Node.descriptor? kind)
        = ((Tree.preorderAll forest).filterMap (Node.descriptor? kind)).map Descriptor.sorted := by
      rw [Tree.preorderAll_mapAll, List.filterMap_map, List.map_filterMap]
      exact congrArg (List.filterMap · _) (funext (Node.descriptor?_sorted kind))
    rw [table_sorted, table_ofForest, table_ofForest, hall, StyleTable.ofSeen,
      Descriptor.firstOccurrences_map_sorted, StyleTable.numbered_map_sorted]
    rfl
  have hext : ∀ r r' : StyleRegistry, (∀ kind, r.table kind = r'.table kind) → r = r' := by
    rintro ⟨texts, fills, strokes⟩ ⟨texts', fills', strokes'⟩ h
    obtain rfl : texts = texts' := h .text
    obtain rfl : fills = fills' := h .fill
    obtain rfl : strokes = strokes' := h .stroke
    rfl
  exact hext _ _ htable

end StyleRegistry

end FrameExport
