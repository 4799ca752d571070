import FrameExport.Proofs.Decimal.Digits
import FrameExport.Proofs.Json.Canonical
import FrameExport.Proofs.Style.Extension

/-!
# What the registry of a forest holds

`Descriptor.firstOccurrences` keeps the first of the descriptors of each key, and
`StyleTable.numbered` gives what is kept the classes of a kind from zero on.  Registering one
descriptor after the other into empty tables does the same: the tables after some descriptors were
seen are `StyleRegistry.ofSeen` of them (`StyleRegistry.extend_empty`).

The headline is `collect_eq_numbered_firstOccurrences`: the table of each kind is the numbered first
occurrences of what the nodes of the forest ask for in preorder, and two of them get one class
exactly when they are equal up to the order of fields.
-/

namespace FrameExport

namespace StyleKind

theorem letters_eq_append (kind : StyleKind) : ∃ c, kind.letters.toList = [c, 's'] := by
  cases kind
  · exact ⟨'t', rfl⟩
  · exact ⟨'f', rfl⟩
  · exact ⟨'b', rfl⟩

theorem letters_injective {k l : StyleKind} (h : k.letters = l.letters) : k = l := by
  revert h
  cases k <;> cases l <;> decide

/-- The characters of a class name: two letters, a hyphen and the digits of the number. -/
theorem toList_className (kind : StyleKind) (n : Nat) :
    (kind.className n).toList = kind.letters.toList ++ '-' :: digitsOf n := by
  simp [className]

/-- A class name tells its kind and its number. -/
theorem className_inj {k l : StyleKind} {m n : Nat} :
    k.className m = l.className n ↔ k = l ∧ m = n := by
  constructor
  · intro h
    have hchars := congrArg String.toList h
    rw [toList_className, toList_className] at hchars
    obtain ⟨c, hc⟩ := letters_eq_append k
    obtain ⟨d, hd⟩ := letters_eq_append l
    have hlength : k.letters.toList.length = l.letters.toList.length := by rw [hc, hd]; rfl
    -- all kinds have two letters, so letters and digits part at one place
    obtain ⟨hletters, hdigits⟩ := List.append_inj hchars hlength
    exact ⟨letters_injective (String.toList_injective hletters),
      digitsOf_injective (List.cons.inj hdigits).2⟩
  · rintro ⟨rfl, rfl⟩
    rfl

end StyleKind

namespace StyleTable

variable {kind : StyleKind} {ds : List Descriptor} {key : String} {entry : StyleEntry}

/-! ### Numbered entries -/

/-- The entries of descriptors in order, numbered from zero. -/
def numbered (kind : StyleKind) (ds : List Descriptor) : List StyleEntry :=
  ds.mapIdx (numberedEntry kind)

/-- The table that still takes new styles after some descriptors of its kind were registered. -/
def ofSeen (kind : StyleKind) (ds : List Descriptor) : StyleTable :=
  ⟨kind, numbered kind (Descriptor.firstOccurrences ds), false⟩

theorem mem_numbered :
    entry ∈ numbered kind ds ↔ ∃ n d, ds[n]? = some d ∧ entry = numberedEntry kind n d := by
  unfold numbered
  rw [List.mem_mapIdx]
  constructor
  · rintro ⟨n, hn, rfl⟩
    exact ⟨n, ds[n], List.getElem?_eq_getElem hn, rfl⟩
  · rintro ⟨n, d, hd, rfl⟩
    obtain ⟨hn, rfl⟩ := List.getElem?_eq_some_iff.mp hd
    exact ⟨n, hn, rfl⟩

theorem numbered_eq_numberedFrom (kind : StyleKind) (ds : List Descriptor) :
    numbered kind ds = numberedFrom kind 0 ds := by
  simp only [numbered, numberedFrom, Nat.zero_add]

theorem keys_numbered (kind : StyleKind) (ds : List Descriptor) :
    (numbered kind ds).map StyleEntry.key = ds.map Descriptor.key := by
  rw [numbered_eq_numberedFrom, keys_numberedFrom]

/-- An empty table is extended to the table of what was seen. -/
theorem extend_empty (kind : StyleKind) (ds : List Descriptor) :
    (empty kind).extend ds = ofSeen kind ds := by
  -- no key is there yet
  have hall : ds.filter (fun d => ((empty kind).get? d.key).isNone) = ds :=
    List.filter_eq_self.mpr fun _ _ => rfl
  have hopen : ¬ (empty kind).frozen = true := Bool.false_ne_true
  rw [extend, if_neg hopen, newTo, hall, ofSeen, numbered_eq_numberedFrom]
  rfl

/-! ### Seen keys -/

/-- Exactly the keys that were seen are found. -/
theorem isSome_get?_ofSeen (kind : StyleKind) :
    ((ofSeen kind ds).get? key).isSome ↔ key ∈ ds.map Descriptor.key := by
  rw [← Descriptor.mem_keys_firstOccurrences, ← keys_numbered kind]
  simp [get?, ofSeen]

/-- What is found under a key is the numbered entry of a descriptor with that key. -/
theorem exists_of_get?_ofSeen (h : (ofSeen kind ds).get? key = some entry) :
    ∃ n d, (Descriptor.firstOccurrences ds)[n]? = some d ∧ d.key = key
      ∧ entry = numberedEntry kind n d := by
  obtain ⟨n, d, hd, rfl⟩ := mem_numbered.mp (List.mem_of_find?_eq_some h)
  have hkey := List.find?_some h
  exact ⟨n, d, hd, by simpa [numberedEntry] using hkey, rfl⟩

end StyleTable

namespace StyleRegistry

/-! ### Registering the styles of a forest -/

/-- The registry that still takes new styles after some descriptors were registered. -/
def ofSeen (ds : List Descriptor) : StyleRegistry where
  texts := .ofSeen .text (ofKind .text ds)
  fills := .ofSeen .fill (ofKind .fill ds)
  strokes := .ofSeen .stroke (ofKind .stroke ds)

theorem table_ofSeen (kind : StyleKind) (ds : List Descriptor) :
    (ofSeen ds).table kind = .ofSeen kind (ofKind kind ds) := by
  cases kind <;> rfl

theorem extend_empty (ds : List Descriptor) : empty.extend ds = ofSeen ds := by
  ext kind
  rw [table_extend, table_empty, StyleTable.extend_empty, table_ofSeen]

/-- Nothing is refused by empty tables. -/
theorem refuses_empty (d : Descriptor) : empty.refuses d = false := by
  rw [refuses, table_empty]
  rfl

theorem collect_empty (forest : List (Tree Node)) :
    collect forest empty = (none, (ofSeen (Node.descriptorsOf forest)).freeze) := by
  rw [collect_eq, registerAll_of_accepted fun d _ => ?_, extend_empty]
  · rfl
  rw [refuses_empty]
  exact Bool.false_ne_true

end StyleRegistry

namespace Node

variable {kind : StyleKind} {m n : Node} {d e : Descriptor}

/-- The descriptor of a kind that a node asks for. -/
def descriptor? : StyleKind → Node → Option Descriptor
  | .text => textDescriptor?
  | .fill => fillDescriptor?
  | .stroke => strokeDescriptor?

theorem mem_strokeDescriptor? :
    n.strokeDescriptor? = some d ↔ ∃ paint weight, Paint.firstVisible n.strokes = some paint
      ∧ n.visibleWeight? = some weight ∧ d = .stroke paint weight := by
  unfold strokeDescriptor?
  cases Paint.firstVisible n.strokes <;> cases n.visibleWeight? <;> simp [eq_comm]

theorem kind_of_descriptor? (h : n.descriptor? kind = some d) : d.kind = kind := by
  cases kind with
  | text =>
    obtain ⟨text, -, rfl⟩ := Option.map_eq_some_iff.mp h
    rfl
  | fill =>
    obtain ⟨paint, -, rfl⟩ := Option.map_eq_some_iff.mp h
    rfl
  | stroke =>
    obtain ⟨paint, weight, -, -, rfl⟩ := mem_strokeDescriptor?.mp h
    rfl

theorem filter_toList (kind l : StyleKind) (n : Node) :
    (n.descriptor? l).toList.filter (fun d => d.kind = kind)
      = if l = kind then (n.descriptor? l).toList else [] := by
  cases h : n.descriptor? l with
  | none => simp
  | some d => by_cases hl : l = kind <;> simp [kind_of_descriptor? h, hl]

/-- Among what a node asks for there is one descriptor of a kind at most. -/
theorem filter_descriptors (kind : StyleKind) (n : Node) :
    n.descriptors.filter (fun d => d.kind = kind) = (n.descriptor? kind).toList := by
  have hparts : n.descriptors = (n.descriptor? .text).toList ++ (n.descriptor? .fill).toList
      ++ (n.descriptor? .stroke).toList := rfl
  rw [hparts, List.filter_append, List.filter_append, filter_toList, filter_toList, filter_toList]
  cases kind <;> simp

/-- The descriptors of a kind are those that the nodes ask for one after the other. -/
theorem ofKind_descriptorsOf (kind : StyleKind) (forest : List (Tree Node)) :
    StyleRegistry.ofKind kind (descriptorsOf forest)
      = (Tree.preorderAll forest).filterMap (descriptor? kind) := by
  unfold StyleRegistry.ofKind descriptorsOf
  induction Tree.preorderAll forest with
  | nil => rfl
  | cons n ns ih =>
    rw [List.flatMap_cons, List.filter_append, ih, filter_descriptors, List.filterMap_cons]
    cases n.descriptor? kind <;> rfl

/-! ### Equal keys -/

theorem reordered_strokeKey_iff {fs gs : Fields} {x y : Double} :
    Json.Reordered (.obj [("strokePaint", .obj fs), ("w", .double x)])
        (.obj [("strokePaint", .obj gs), ("w", .double y)])
      ↔ Json.Reordered (.obj fs) (.obj gs) ∧ x = y := by
  constructor
  · intro h
    have hfields : Json.ReorderedFields [("strokePaint", .obj fs), ("w", .double x)]
        [("strokePaint", .obj gs), ("w", .double y)] := h
    have hweight : Json.Reordered (.double x) (.double y) := hfields.get "w"
    exact ⟨hfields.get "strokePaint", by simpa [Json.Reordered] using hweight⟩
  · rintro ⟨hpaint, rfl⟩
    show Json.ReorderedFields [("strokePaint", .obj fs), ("w", .double x)]
      [("strokePaint", .obj gs), ("w", .double x)]
    exact ⟨⟨.obj gs, rfl, hpaint⟩, ⟨.double x, rfl, rfl⟩, rfl⟩

/-- Two descriptors of a kind have one key exactly when what they consist of is equal up to the
order of fields, and their weights are equal. -/
theorem key_eq_key_iff (hm : m.descriptor? kind = some d) (hn : n.descriptor? kind = some e) :
    d.key = e.key ↔ Json.Reordered d.payload e.payload ∧ d.weight = e.weight := by
  cases kind with
  | text =>
    obtain ⟨text, -, rfl⟩ := Option.map_eq_some_iff.mp hm
    obtain ⟨text', -, rfl⟩ := Option.map_eq_some_iff.mp hn
    simp [Descriptor.text, Json.canonical_eq_canonical_iff]
  | fill =>
    obtain ⟨paint, -, rfl⟩ := Option.map_eq_some_iff.mp hm
    obtain ⟨paint', -, rfl⟩ := Option.map_eq_some_iff.mp hn
    simp [Descriptor.fill, Json.canonical_eq_canonical_iff]
  | stroke =>
    obtain ⟨paint, weight, -, -, rfl⟩ := mem_strokeDescriptor?.mp hm
    obtain ⟨paint', weight', -, -, rfl⟩ := mem_strokeDescriptor?.mp hn
    simp [Descriptor.stroke, Json.canonical_eq_canonical_iff, reordered_strokeKey_iff]

end Node

namespace StyleRegistry

variable {kind : StyleKind} {forest : List (Tree Node)} {m n : Node} {d e : Descriptor}

/-! ### The registry of a forest -/

theorem table_ofForest (kind : StyleKind) (forest : List (Tree Node)) :
    (ofForest forest).table kind = (StyleTable.ofSeen kind
      ((Tree.preorderAll forest).filterMap (Node.descriptor? kind))).freeze := by
  rw [ofForest, collect_empty, ← Node.ofKind_descriptorsOf]
  cases kind <;> rfl

/-- The first occurrences of a kind among what the nodes of a forest ask for. -/
def firstDescriptors (kind : StyleKind) (forest : List (Tree Node)) : List Descriptor :=
  Descriptor.firstOccurrences ((Tree.preorderAll forest).filterMap (Node.descriptor? kind))

theorem exists_node_of_mem (h : d ∈ firstDescriptors kind forest) :
    ∃ n ∈ Tree.preorderAll forest, n.descriptor? kind = some d :=
  List.mem_filterMap.mp (Descriptor.firstOccurrences_subset h)

theorem mem_entries_ofForest {entry : StyleEntry} :
    entry ∈ ((ofForest forest).table kind).entries
      ↔ ∃ i d, (firstDescriptors kind forest)[i]? = some d
        ∧ entry = StyleTable.numberedEntry kind i d := by
  rw [table_ofForest]
  exact StyleTable.mem_numbered

/-- What a node of the forest asks for is found: under its key stands the entry of the first
descriptor with that key, and the two are equal up to the order of fields. -/
theorem exists_entry (hn : n ∈ Tree.preorderAll forest) (hd : n.descriptor? kind = some d) :
    ∃ i e, (firstDescriptors kind forest)[i]? = some e ∧ e.key = d.key
      ∧ ((ofForest forest).table kind).get? d.key = some (StyleTable.numberedEntry kind i e)
      ∧ Json.Reordered e.payload d.payload ∧ e.weight = d.weight := by
  have hmem := List.mem_filterMap.mpr ⟨n, hn, hd⟩
  have hsome := (StyleTable.isSome_get?_ofSeen kind).mpr (List.mem_map_of_mem hmem)
  obtain ⟨entry, hentry⟩ := Option.isSome_iff_exists.mp hsome
  obtain ⟨i, e, he, hkey, rfl⟩ := StyleTable.exists_of_get?_ofSeen hentry
  -- some node asks for what the entry was made of, and so the two keys can be compared
  obtain ⟨m, -, hm⟩ := exists_node_of_mem (List.mem_of_getElem? he)
  refine ⟨i, e, he, hkey, ?_, (Node.key_eq_key_iff hm hd).mp hkey⟩
  rw [table_ofForest]
  exact hentry

/-- What holds of the entries of a kind is what holds of what the nodes ask for, as far as the order
of fields does not matter to it. -/
theorem forall_entries_iff (kind : StyleKind) (forest : List (Tree Node))
    {P : Json → Json → Prop}
    (hP : ∀ p q weight, Json.Reordered p q → (P p weight ↔ P q weight)) :
    (∀ entry ∈ ((ofForest forest).table kind).entries, P entry.payload entry.weight)
      ↔ ∀ n ∈ Tree.preorderAll forest, ∀ d, n.descriptor? kind = some d →
        P d.payload d.weight := by
  constructor
  · intro h n hn d hd
    obtain ⟨i, e, he, -, -, hpayload, hweight⟩ := exists_entry hn hd
    rw [← hP _ _ _ hpayload, ← hweight]
    exact h _ (mem_entries_ofForest.mpr ⟨i, e, he, rfl⟩)
  · intro h entry hentry
    obtain ⟨i, d, hi, rfl⟩ := mem_entries_ofForest.mp hentry
    obtain ⟨n, hn, hd⟩ := exists_node_of_mem (List.mem_of_getElem? hi)
    exact h n hn d hd

/-- The class of what a node asks for is that of the entry under its key. -/
theorem classOf?_eq (hd : n.descriptor? kind = some d) :
    (ofForest forest).classOf? d
      = (((ofForest forest).table kind).get? d.key).map StyleEntry.className := by
  rw [classOf?, Node.kind_of_descriptor? hd]

/-- What two nodes ask for gets one class exactly when it has one key. -/
theorem classOf?_eq_classOf?_iff (hm : m ∈ Tree.preorderAll forest)
    (hn : n ∈ Tree.preorderAll forest) (hd : m.descriptor? kind = some d)
    (he : n.descriptor? kind = some e) :
    (ofForest forest).classOf? d = (ofForest forest).classOf? e ↔ d.key = e.key := by
  rw [classOf?_eq hd, classOf?_eq he]
  constructor
  · obtain ⟨i, d', hi, hdkey, hget, -⟩ := exists_entry hm hd
    obtain ⟨j, e', hj, hekey, hget', -⟩ := exists_entry hn he
    rw [hget, hget']
    intro h
    -- equal classes have equal numbers, under which one descriptor stands
    have hij : i = j := (StyleKind.className_inj.mp (Option.some.inj h)).2
    subst hij
    rw [hi] at hj
    rw [← hdkey, ← hekey, Option.some.inj hj]
  · intro h
    rw [h]

/-- **The registry is the numbered first occurrences of the preorder.**  Collecting the styles of a
forest into an empty registry is never refused; the table of each kind then has, in order, the first
occurrence of each key among the descriptors of the nodes in preorder, numbered from zero, and takes
no new styles.  What two nodes ask for gets the same class exactly when it is equal up to the order
of fields, with equal weights for strokes. -/
theorem collect_eq_numbered_firstOccurrences (forest : List (Tree Node)) :
    collect forest empty = (none, ofForest forest)
      ∧ (∀ kind, (ofForest forest).table kind = ⟨kind, StyleTable.numbered kind
            (Descriptor.firstOccurrences
              ((Tree.preorderAll forest).filterMap (Node.descriptor? kind))), true⟩
          ∧ (((ofForest forest).table kind).entries.map StyleEntry.key).Nodup)
      ∧ ∀ kind, ∀ m ∈ Tree.preorderAll forest, ∀ n ∈ Tree.preorderAll forest, ∀ d e,
          m.descriptor? kind = some d → n.descriptor? kind = some e →
            ((ofForest forest).classOf? d).isSome
              ∧ ((ofForest forest).classOf? d = (ofForest forest).classOf? e
                ↔ Json.Reordered d.payload e.payload ∧ d.weight = e.weight) := by
  refine ⟨?_, ?_, ?_⟩
  · rw [ofForest, collect_empty]
  · intro kind
    rw [table_ofForest]
    refine ⟨rfl, ?_⟩
    show ((StyleTable.numbered kind _).map StyleEntry.key).Nodup
    rw [StyleTable.keys_numbered]
    exact Descriptor.nodup_keys_firstOccurrences _
  · intro kind m hm n hn d e hd he
    constructor
    · obtain ⟨i, d', -, -, hget, -⟩ := exists_entry hm hd
      rw [classOf?_eq hd, hget]
      rfl
    · rw [classOf?_eq_classOf?_iff hm hn hd he]
      exact Node.key_eq_key_iff hd he

end StyleRegistry

end FrameExport
