import FrameExport.Proofs.Style.Preorder
import Mathlib.Data.List.Basic

/-!
# Registering several styles

A table refuses a style if it is frozen and does not have its key; any other style is registered.
`StyleTable.extend` is the table after descriptors were registered that it does not refuse: those that
are new to it, each at its first occurrence, have become its last entries, with the numbers that follow.
A frozen table stays as it is.

Registering one more style extends a table, and a registry, by one more descriptor
(`StyleTable.register_extend`, `StyleRegistry.register_extend`).  So registering many styles in a row
extends a registry by those before the first that is refused (`StyleRegistry.registerAll_of_accepted`,
`StyleRegistry.registerAll_of_refused`).
-/

namespace FrameExport

namespace Descriptor

variable {ds : List Descriptor}

/-! ### First occurrences -/

/-- The first descriptor of each key, in order. -/
def firstOccurrences : List Descriptor → List Descriptor
  | [] => []
  | d :: ds => d :: (firstOccurrences ds).filter fun e => e.key ≠ d.key

/-- The keys that occur first are those that occur. -/
theorem mem_keys_firstOccurrences {key : String} :
    key ∈ (firstOccurrences ds).map Descriptor.key ↔ key ∈ ds.map Descriptor.key := by
  induction ds with
  | nil => rfl
  | cons d ds ih =>
    simp only [firstOccurrences, List.map_cons, List.mem_cons]
    by_cases hkey : key = d.key
    · simp [hkey]
    · rw [← ih]
      simp only [hkey, false_or, List.mem_map, List.mem_filter, decide_eq_true_eq]
      constructor
      · rintro ⟨e, ⟨he, -⟩, rfl⟩
        exact ⟨e, he, rfl⟩
      · rintro ⟨e, he, rfl⟩
        exact ⟨e, ⟨he, hkey⟩, rfl⟩

theorem nodup_keys_firstOccurrences (ds : List Descriptor) :
    ((firstOccurrences ds).map Descriptor.key).Nodup := by
  induction ds with
  | nil => exact List.nodup_nil
  | cons d ds ih =>
    rw [firstOccurrences, List.map_cons, List.nodup_cons]
    constructor
    · intro hmem
      obtain ⟨e, he, hkey⟩ := List.mem_map.mp hmem
      simp [hkey] at he
    · exact ih.sublist (List.filter_sublist.map _)

theorem firstOccurrences_subset {d : Descriptor} (h : d ∈ firstOccurrences ds) : d ∈ ds := by
  induction ds with
  | nil => exact h
  | cons e ds ih =>
    rw [firstOccurrences] at h
    rcases List.mem_cons.mp h with rfl | hmem
    · exact List.mem_cons_self
    · exact List.mem_cons_of_mem _ (ih (List.mem_of_mem_filter hmem))

/-- One more descriptor at the end stays unless its key has occurred. -/
theorem firstOccurrences_concat (ds : List Descriptor) (d : Descriptor) :
    firstOccurrences (ds ++ [d])
      = if d.key ∈ ds.map Descriptor.key then firstOccurrences ds
        else firstOccurrences ds ++ [d] := by
  induction ds with
  | nil => rfl
  | cons e ds ih =>
    rw [List.cons_append, firstOccurrences, ih, firstOccurrences, List.map_cons]
    by_cases hde : d.key = e.key
    · have hhead : d.key ∈ e.key :: ds.map Descriptor.key := by
        rw [hde]
        exact List.mem_cons_self
      rw [if_pos hhead]
      -- the later descriptor is dropped by the head, whether it was dropped before or not
      split
      · rfl
      · rw [List.filter_append]
        simp [hde]
    · by_cases hmem : d.key ∈ ds.map Descriptor.key
      · rw [if_pos hmem, if_pos (List.mem_cons_of_mem _ hmem)]
      · have hnone : d.key ∉ e.key :: ds.map Descriptor.key := by
          rw [List.mem_cons, not_or]
          exact ⟨hde, hmem⟩
        rw [if_neg hmem, if_neg hnone, List.filter_append, List.cons_append]
        simp [hde]

end Descriptor

namespace StyleTable

variable {table : StyleTable} {ds : List Descriptor} {d : Descriptor} {key : String}

/-! ### Numbered entries -/

/-- The entry of a descriptor that is the first of its key, with its number. -/
def numberedEntry (kind : StyleKind) (n : Nat) (d : Descriptor) : StyleEntry :=
  ⟨d.key, kind.className n, d.payload, d.weight⟩

/-- The entries of descriptors in order, numbered from a given number on. -/
def numberedFrom (kind : StyleKind) (n : Nat) (ds : List Descriptor) : List StyleEntry :=
  ds.mapIdx fun i => numberedEntry kind (n + i)

theorem keys_numberedFrom (kind : StyleKind) (n : Nat) (ds : List Descriptor) :
    (numberedFrom kind n ds).map StyleEntry.key = ds.map Descriptor.key := by
  apply List.ext_getElem?
  intro i
  simp only [numberedFrom, List.getElem?_map, List.getElem?_mapIdx, Option.map_map]
  rfl

theorem length_numberedFrom (kind : StyleKind) (n : Nat) (ds : List Descriptor) :
    (numberedFrom kind n ds).length = ds.length := by
  rw [numberedFrom, List.length_mapIdx]

theorem numberedFrom_concat (kind : StyleKind) (n : Nat) (ds : List Descriptor) (d : Descriptor) :
    numberedFrom kind n (ds ++ [d])
      = numberedFrom kind n ds ++ [numberedEntry kind (n + ds.length) d] := by
  rw [numberedFrom, List.mapIdx_concat, numberedFrom]

/-! ### Extended tables -/

/-- Whether the table is frozen and does not have a key. -/
def refuses (table : StyleTable) (key : String) : Bool := table.frozen && (table.get? key).isNone

theorem refuses_iff : table.refuses key = true ↔ table.frozen = true ∧ table.get? key = none := by
  rw [refuses, Bool.and_eq_true, Option.isNone_iff_eq_none]

/-- The descriptors that are the first of their key, among those whose key the table does not have. -/
def newTo (table : StyleTable) (ds : List Descriptor) : List Descriptor :=
  Descriptor.firstOccurrences (ds.filter fun d => (table.get? d.key).isNone)

/-- The table after descriptors were registered that it does not refuse. -/
def extend (table : StyleTable) (ds : List Descriptor) : StyleTable :=
  if table.frozen then table
  else { table with
    entries := table.entries ++ numberedFrom table.kind table.entries.length (table.newTo ds) }

theorem extend_of_frozen (h : table.frozen = true) (ds : List Descriptor) : table.extend ds = table := by
  rw [extend, if_pos h]

theorem freeze_of_frozen (h : table.frozen = true) : table.freeze = table := by
  rw [freeze, ← h]

theorem frozen_extend (table : StyleTable) (ds : List Descriptor) :
    (table.extend ds).frozen = table.frozen := by
  unfold extend
  split <;> rfl

theorem extend_nil (table : StyleTable) : table.extend [] = table := by
  unfold extend
  split
  · rfl
  · show { table with entries := table.entries ++ [] } = table
    rw [List.append_nil]

theorem entries_extend (h : table.frozen = false) (ds : List Descriptor) :
    (table.extend ds).entries
      = table.entries ++ numberedFrom table.kind table.entries.length (table.newTo ds) := by
  rw [extend, h]
  rfl

/-- The keys that are new are those that occur and that the table does not have. -/
theorem mem_keys_newTo :
    key ∈ (table.newTo ds).map Descriptor.key
      ↔ table.get? key = none ∧ key ∈ ds.map Descriptor.key := by
  rw [newTo, Descriptor.mem_keys_firstOccurrences]
  simp only [List.mem_map, List.mem_filter, Option.isNone_iff_eq_none]
  constructor
  · rintro ⟨d, ⟨hd, hnone⟩, rfl⟩
    exact ⟨hnone, d, hd, rfl⟩
  · rintro ⟨hnone, d, hd, rfl⟩
    exact ⟨d, ⟨hd, hnone⟩, rfl⟩

/-- One more descriptor at the end is new unless the table has its key or its key has occurred. -/
theorem newTo_concat (table : StyleTable) (ds : List Descriptor) (d : Descriptor) :
    table.newTo (ds ++ [d])
      = if table.get? d.key = none ∧ d.key ∉ ds.map Descriptor.key then table.newTo ds ++ [d]
        else table.newTo ds := by
  by_cases hnone : table.get? d.key = none
  · have hfilter : (ds ++ [d]).filter (fun d => (table.get? d.key).isNone)
        = ds.filter (fun d => (table.get? d.key).isNone) ++ [d] := by
      simp [List.filter_append, hnone]
    have hkey : d.key ∈ (table.newTo ds).map Descriptor.key
        ↔ table.get? d.key = none ∧ d.key ∈ ds.map Descriptor.key := mem_keys_newTo
    rw [newTo, Descriptor.mem_keys_firstOccurrences] at hkey
    rw [newTo, hfilter, Descriptor.firstOccurrences_concat, ← newTo]
    by_cases hmem : d.key ∈ ds.map Descriptor.key
    · rw [if_pos (hkey.mpr ⟨hnone, hmem⟩), if_neg fun h => h.2 hmem]
    · rw [if_neg fun h => hmem (hkey.mp h).2, if_pos ⟨hnone, hmem⟩]
  · have hfilter : (ds ++ [d]).filter (fun d => (table.get? d.key).isNone)
        = ds.filter (fun d => (table.get? d.key).isNone) := by
      simp [List.filter_append, hnone]
    rw [newTo, hfilter, if_neg fun h => hnone h.1, newTo]

/-- An extended table has the keys that it had and those of the descriptors, if it was not frozen. -/
theorem get?_extend_eq_none_iff (hopen : table.frozen = false) :
    (table.extend ds).get? key = none
      ↔ table.get? key = none ∧ key ∉ ds.map Descriptor.key := by
  have hnew : (numberedFrom table.kind table.entries.length (table.newTo ds)).find?
      (fun entry => entry.key == key) = none ↔ key ∉ (table.newTo ds).map Descriptor.key := by
    rw [← keys_numberedFrom table.kind table.entries.length]
    simp
  rw [get?, entries_extend hopen, List.find?_append, Option.or_eq_none_iff, hnew, mem_keys_newTo]
  show table.get? key = none ∧ _ ↔ _
  tauto

/-- Registering a style that the table does not refuse extends it by one more descriptor. -/
theorem register_extend (h : ¬ table.refuses d.key = true) (ds : List Descriptor) :
    ∃ className, (table.extend ds).register d.key d.payload d.weight
      = .ok (className, table.extend (ds ++ [d])) := by
  cases hfrozen : table.frozen with
  | true =>
    -- a frozen table has the key and stays as it is
    rw [refuses_iff, not_and] at h
    obtain ⟨entry, hentry⟩ := Option.ne_none_iff_exists'.mp (h hfrozen)
    rw [extend_of_frozen hfrozen, extend_of_frozen hfrozen, register, hentry]
    exact ⟨entry.className, rfl⟩
  | false =>
    rw [register]
    cases hget : (table.extend ds).get? d.key with
    | some entry =>
      have hknown : ¬ (table.get? d.key = none ∧ d.key ∉ ds.map Descriptor.key) := by
        rw [← get?_extend_eq_none_iff hfrozen, hget]
        exact nofun
      have hsame : table.extend (ds ++ [d]) = table.extend ds := by
        rw [extend, newTo_concat, if_neg hknown, ← extend]
      exact ⟨entry.className, by rw [hsame]⟩
    | none =>
      -- the key is new: its number is the number of entries so far
      have hnew := (get?_extend_eq_none_iff hfrozen).mp hget
      have hpush : (table.extend ds).push d.key d.payload d.weight = table.extend (ds ++ [d]) := by
        rw [extend, extend, hfrozen, newTo_concat, if_pos hnew, numberedFrom_concat]
        simp only [push, Bool.false_eq_true, if_false, List.append_assoc, List.length_append,
          length_numberedFrom]
        rfl
      exact ⟨(table.extend ds).kind.className (table.extend ds).entries.length, by
        simp only [frozen_extend, hfrozen, hpush]
        rfl⟩

/-- A style that the table refuses is refused however the table was extended. -/
theorem register_extend_of_refuses (h : table.refuses d.key = true) (ds : List Descriptor) :
    (table.extend ds).register d.key d.payload d.weight = .error ⟨table.kind⟩ := by
  rw [refuses_iff] at h
  rw [extend_of_frozen h.1, register, h.2, h.1]
  rfl

end StyleTable

namespace StyleRegistry

variable {registry : StyleRegistry} {ds before rest : List Descriptor} {d : Descriptor}

/-! ### Tables of a registry -/

@[ext] theorem ext_table {registry registry' : StyleRegistry}
    (h : ∀ kind, registry.table kind = registry'.table kind) : registry = registry' := by
  have htexts : registry.texts = registry'.texts := h .text
  have hfills : registry.fills = registry'.fills := h .fill
  have hstrokes : registry.strokes = registry'.strokes := h .stroke
  cases registry
  cases registry'
  subst htexts hfills hstrokes
  rfl

theorem table_empty (kind : StyleKind) : empty.table kind = .empty kind := by
  cases kind <;> rfl

theorem table_setTable (registry : StyleRegistry) (kind l : StyleKind) (table : StyleTable) :
    (registry.setTable kind table).table l = if l = kind then table else registry.table l := by
  cases kind <;> cases l <;> rfl

theorem table_freeze (registry : StyleRegistry) (kind : StyleKind) :
    registry.freeze.table kind = (registry.table kind).freeze := by
  cases kind <;> rfl

/-! ### Extended registries -/

/-- The descriptors of a kind. -/
def ofKind (kind : StyleKind) (ds : List Descriptor) : List Descriptor :=
  ds.filter fun d => d.kind = kind

theorem ofKind_concat (kind : StyleKind) (ds : List Descriptor) (d : Descriptor) :
    ofKind kind (ds ++ [d]) = if d.kind = kind then ofKind kind ds ++ [d] else ofKind kind ds := by
  unfold ofKind
  rw [List.filter_append]
  split
  · rename_i h
    simp [h]
  · rename_i h
    simp [h]

/-- Whether the table of its kind is frozen and does not have the key of a style. -/
def refuses (registry : StyleRegistry) (d : Descriptor) : Bool :=
  (registry.table d.kind).refuses d.key

/-- The registry after styles were registered that it does not refuse. -/
def extend (registry : StyleRegistry) (ds : List Descriptor) : StyleRegistry where
  texts := registry.texts.extend (ofKind .text ds)
  fills := registry.fills.extend (ofKind .fill ds)
  strokes := registry.strokes.extend (ofKind .stroke ds)

theorem table_extend (registry : StyleRegistry) (kind : StyleKind) (ds : List Descriptor) :
    (registry.extend ds).table kind = (registry.table kind).extend (ofKind kind ds) := by
  cases kind <;> rfl

theorem extend_nil (registry : StyleRegistry) : registry.extend [] = registry := by
  ext kind
  rw [table_extend]
  exact StyleTable.extend_nil _

/-- Registering a style that is not refused extends the table of its kind. -/
theorem register_extend (h : ¬ registry.refuses d = true) (ds : List Descriptor) :
    ∃ className, (registry.extend ds).register d = .ok (className, registry.extend (ds ++ [d])) := by
  obtain ⟨className, hregister⟩ := StyleTable.register_extend h (ofKind d.kind ds)
  refine ⟨className, ?_⟩
  rw [register, table_extend, hregister]
  -- the tables of the other kinds do not see the descriptor
  have hset : (registry.extend ds).setTable d.kind
      ((registry.table d.kind).extend (ofKind d.kind ds ++ [d])) = registry.extend (ds ++ [d]) := by
    ext kind
    rw [table_setTable, table_extend, table_extend, ofKind_concat]
    by_cases hkind : kind = d.kind
    · rw [if_pos hkind, if_pos hkind.symm, hkind]
    · rw [if_neg hkind, if_neg (Ne.symm hkind)]
  rw [← hset]
  rfl

theorem register_extend_of_refuses (h : registry.refuses d = true) (ds : List Descriptor) :
    (registry.extend ds).register d = .error ⟨(registry.table d.kind).kind⟩ := by
  rw [register, table_extend, StyleTable.register_extend_of_refuses h]
  rfl

/-- Styles that are not refused are registered one after the other, whatever comes behind them. -/
theorem registerAll_extend (hds : ∀ d ∈ ds, ¬ registry.refuses d = true)
    (seen rest : List Descriptor) :
    registerAll (ds ++ rest) (registry.extend seen)
      = registerAll rest (registry.extend (seen ++ ds)) := by
  induction ds generalizing seen with
  | nil => rw [List.nil_append, List.append_nil]
  | cons d ds ih =>
    rw [List.forall_mem_cons] at hds
    obtain ⟨className, hregister⟩ := register_extend hds.1 seen
    rw [List.cons_append, registerAll, hregister]
    simp only
    rw [ih hds.2, List.append_assoc, List.singleton_append]

/-- Registering styles of which none is refused extends the registry by all of them. -/
theorem registerAll_of_accepted (hds : ∀ d ∈ ds, ¬ registry.refuses d = true) :
    registerAll ds registry = (none, registry.extend ds) := by
  have hall := registerAll_extend hds [] []
  rwa [List.append_nil, List.nil_append, extend_nil] at hall

/-- Registering styles stops at the first that is refused, and those before it extend the registry. -/
theorem registerAll_of_refused (hbefore : ∀ e ∈ before, ¬ registry.refuses e = true)
    (hd : registry.refuses d = true) (rest : List Descriptor) :
    registerAll (before ++ d :: rest) registry
      = (some ⟨(registry.table d.kind).kind⟩, registry.extend before) := by
  have hall := registerAll_extend hbefore [] (d :: rest)
  rw [List.nil_append, extend_nil] at hall
  rw [hall, registerAll, register_extend_of_refuses hd]

end StyleRegistry

end FrameExport
