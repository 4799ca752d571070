import FrameExport.Proofs.Style.History

/-!
# Tables only grow

A table that came out of another by registering and freezing has the entries of the other first, and
if the other was frozen it is the same (`StyleTable.Grows`).  The keys of its entries stay distinct
(`StyleTable.DistinctKeys`), since only a key that is not there becomes a new entry.

The headline is `StyleRegistry.invariant_after`: whatever happened to a registry, and whatever happens
next, its tables have distinct keys, numbered classes and grow only, and registering a style answers
with the class of its key, is refused, or makes a new entry.
-/

namespace FrameExport

namespace StyleTable

variable {table next later : StyleTable} {key className : String} {payload weight : Json}
  {entry : StyleEntry}

/-! ### Growing -/

/-- A later state of a table: new entries stand behind the old ones, which stay as they are, and a
frozen table does not change at all. -/
structure Grows (table later : StyleTable) : Prop where
  prefix_entries : table.entries <+: later.entries
  eq_of_frozen : table.frozen = true → later = table

theorem Grows.refl (table : StyleTable) : table.Grows table := ⟨List.prefix_rfl, fun _ => rfl⟩

theorem Grows.trans (h : table.Grows next) (h' : next.Grows later) : table.Grows later where
  prefix_entries := h.prefix_entries.trans h'.prefix_entries
  eq_of_frozen := by
    intro hfrozen
    have hnext := h.eq_of_frozen hfrozen
    rw [hnext] at h'
    exact h'.eq_of_frozen hfrozen

theorem grows_freeze (table : StyleTable) : table.Grows table.freeze where
  prefix_entries := List.prefix_rfl
  eq_of_frozen := freeze_of_frozen

theorem grows_of_register (h : table.register key payload weight = .ok (className, next)) :
    table.Grows next := by
  obtain ⟨entry, -, -, rfl⟩ | ⟨-, hfrozen, -, rfl⟩ := register_cases h
  · exact Grows.refl _
  · refine ⟨List.prefix_append _ _, fun hfrozen' => ?_⟩
    rw [hfrozen] at hfrozen'
    cases hfrozen'

/-! ### Distinct keys -/

/-- No key has two entries. -/
def DistinctKeys (table : StyleTable) : Prop := (table.entries.map StyleEntry.key).Nodup

theorem get?_eq_none_iff : table.get? key = none ↔ ∀ entry ∈ table.entries, entry.key ≠ key := by
  rw [get?, List.find?_eq_none]
  simp only [beq_iff_eq, ne_eq]

theorem DistinctKeys.register (h : table.DistinctKeys)
    (hregister : table.register key payload weight = .ok (className, next)) :
    next.DistinctKeys := by
  obtain ⟨entry, -, -, rfl⟩ | ⟨hnone, -, -, rfl⟩ := register_cases hregister
  · exact h
  · rw [DistinctKeys, entries_push, List.map_append, List.map_singleton, ← List.concat_eq_append]
    refine h.concat fun hmem => ?_
    -- a key that is there would have been found
    obtain ⟨entry, hentry, hkey⟩ := List.mem_map.mp hmem
    exact get?_eq_none_iff.mp hnone entry hentry hkey

/-- With distinct keys an entry is found under its key. -/
theorem DistinctKeys.get?_eq (h : table.DistinctKeys) (hentry : entry ∈ table.entries) :
    table.get? entry.key = some entry := by
  cases hget : table.get? entry.key with
  | none => exact absurd rfl (get?_eq_none_iff.mp hget entry hentry)
  | some found =>
    have hkey : found.key = entry.key := by simpa using List.find?_some hget
    rw [List.inj_on_of_nodup_map h (List.mem_of_find?_eq_some hget) hentry hkey]

/-! ### What registering answers -/

/-- A style that is there keeps its class and the table. -/
theorem register_of_get? (h : table.get? key = some entry) (payload weight : Json) :
    table.register key payload weight = .ok (entry.className, table) := by
  rw [register, h]

/-- A style is refused exactly when the table is frozen and does not have its key. -/
theorem register_eq_error_iff {error : FrozenTable} :
    table.register key payload weight = .error error
      ↔ error = ⟨table.kind⟩ ∧ table.frozen = true ∧ table.get? key = none := by
  unfold register
  cases table.get? key with
  | some entry => simp
  | none =>
    cases table.frozen with
    | false => simp
    | true => simp [eq_comm]

/-- A new style in a table that takes some becomes its last entry. -/
theorem register_of_open (hopen : table.frozen = false) (hnone : table.get? key = none)
    (payload weight : Json) : table.register key payload weight
      = .ok (table.kind.className table.entries.length, table.push key payload weight) := by
  rw [register, hnone, hopen]
  rfl

end StyleTable

namespace StyleRegistry

variable {registry : StyleRegistry} {d : Descriptor}

theorem distinctKeys_after (ops : List Operation) (kind : StyleKind) :
    ((after ops).table kind).DistinctKeys := by
  refine tables_induction (P := fun _ table => table.DistinctKeys) ?_ ?_ ops ?_ kind
  · exact fun _ _ _ _ _ _ _ h hregister => h.register hregister
  · exact fun _ _ h => h
  · intro kind
    rw [table_empty]
    exact List.nodup_nil

/-- Whatever is done with a registry, its tables grow. -/
theorem grows_foldl_perform (registry : StyleRegistry) (ops : List Operation) (kind : StyleKind) :
    (registry.table kind).Grows ((ops.foldl perform registry).table kind) := by
  refine tables_induction (P := fun kind table => (registry.table kind).Grows table) ?_ ?_ ops ?_ kind
  · exact fun _ _ _ _ _ _ _ h hregister => h.trans (StyleTable.grows_of_register hregister)
  · exact fun _ _ h => h.trans (StyleTable.grows_freeze _)
  · exact fun kind => StyleTable.Grows.refl _

theorem register_eq_error_iff {error : FrozenTable} :
    registry.register d = .error error
      ↔ (registry.table d.kind).register d.key d.payload d.weight = .error error := by
  unfold register
  cases (registry.table d.kind).register d.key d.payload d.weight <;> simp [Except.map]

/-- A refused style leaves the registry as it is. -/
theorem perform_register_of_error {error : FrozenTable} (h : registry.register d = .error error) :
    registry.perform (.register d) = registry := by
  rw [perform, h]

/-- **What every registry keeps.**  Whatever happened to a registry, the keys of each table are
distinct, its classes are those of its kind from zero on, and whatever happens next the table grows:
its entries stay in front as they are, and once it is frozen it does not change.  Registering a style
whose key is there answers with the class of that key and changes nothing, frozen or not.  A style is
refused exactly when the table of its kind is frozen and does not have its key, and then nothing
changes; otherwise a style whose key is not there becomes the last entry, with the next number. -/
theorem invariant_after (ops : List Operation) :
    (∀ kind, ((after ops).table kind).DistinctKeys
        ∧ ((after ops).table kind).Numbered kind
        ∧ ∀ more, ((after ops).table kind).Grows ((after (ops ++ more)).table kind))
      ∧ ∀ d : Descriptor,
        (∀ entry ∈ ((after ops).table d.kind).entries, entry.key = d.key →
          (after ops).register d = .ok (entry.className, after ops))
        ∧ (∀ error, (after ops).register d = .error error
          ↔ error = ⟨d.kind⟩ ∧ ((after ops).table d.kind).frozen = true
            ∧ ∀ entry ∈ ((after ops).table d.kind).entries, entry.key ≠ d.key)
        ∧ (∀ error, (after ops).register d = .error error →
          after (ops ++ [.register d]) = after ops)
        ∧ (((after ops).table d.kind).frozen = false →
          (∀ entry ∈ ((after ops).table d.kind).entries, entry.key ≠ d.key) →
          ∃ next, (after ops).register d
              = .ok (d.kind.className ((after ops).table d.kind).entries.length, next)
            ∧ (next.table d.kind).entries = ((after ops).table d.kind).entries
              ++ [⟨d.key, d.kind.className ((after ops).table d.kind).entries.length,
                d.payload, d.weight⟩]) := by
  refine ⟨fun kind => ⟨distinctKeys_after ops kind, numbered_after ops kind, fun more => ?_⟩,
    fun d => ?_⟩
  · rw [after, after, List.foldl_append]
    exact grows_foldl_perform _ more kind
  · have hkind : ((after ops).table d.kind).kind = d.kind := (numbered_after ops d.kind).1
    refine ⟨fun entry hentry hkey => ?_, fun error => ?_, fun error herror => ?_,
      fun hopen habsent => ?_⟩
    · have hget := (distinctKeys_after ops d.kind).get?_eq hentry
      rw [hkey] at hget
      refine register_eq_ok_iff.mpr ⟨_, StyleTable.register_of_get? hget _ _, ?_⟩
      rw [setTable_table]
    · rw [register_eq_error_iff, StyleTable.register_eq_error_iff, hkind,
        StyleTable.get?_eq_none_iff]
    · rw [after, List.foldl_append]
      exact perform_register_of_error herror
    · have hnew := StyleTable.register_of_open hopen
        (StyleTable.get?_eq_none_iff.mpr habsent) d.payload d.weight
      rw [hkind] at hnew
      refine ⟨_, register_eq_ok_iff.mpr ⟨_, hnew, rfl⟩, ?_⟩
      rw [table_setTable, if_pos rfl, StyleTable.entries_push, hkind]

/-- A fill is registered and its table frozen; then it is still found, another one is refused, and a
stroke, whose table is not frozen, gets the first number. -/
theorem invariant_after_freezeTable :
    let fill : Descriptor := .fill [("type", .str "SOLID")]
    let registry := after [.register fill, .freezeTable .fill]
    registry.register fill = .ok ("fs-0", registry)
      ∧ registry.register (.fill []) = .error ⟨.fill⟩
      ∧ after [.register fill, .freezeTable .fill, .register (.fill [])] = registry
      ∧ ∃ next, registry.register (.stroke [] .one) = .ok ("bs-0", next) := by
  intro fill registry
  have hinvariant := invariant_after [.register fill, .freezeTable .fill]
  obtain ⟨hknown, -, -, -⟩ := hinvariant.2 fill
  obtain ⟨-, hrefused, hunchanged, -⟩ := hinvariant.2 (.fill [])
  obtain ⟨-, -, -, hnew⟩ := hinvariant.2 (.stroke [] .one)
  have hfirstFill : StyleKind.fill.className 0 = "fs-0" := by decide
  have hfirstStroke : StyleKind.stroke.className 0 = "bs-0" := by decide
  have hentries : (registry.table .fill).entries
      = [⟨fill.key, StyleKind.fill.className 0, fill.payload, .null⟩] := rfl
  have hother : fill.key ≠ (Descriptor.fill []).key := by decide
  have herror : registry.register (.fill []) = .error ⟨.fill⟩ := by
    refine (hrefused _).mpr ⟨rfl, rfl, fun entry hentry => ?_⟩
    obtain rfl := List.mem_singleton.mp (hentries ▸ hentry)
    exact hother
  rw [← hfirstFill, ← hfirstStroke]
  refine ⟨hknown ⟨fill.key, StyleKind.fill.className 0, fill.payload, .null⟩ ?_ rfl, herror,
    hunchanged _ herror, ?_⟩
  · exact hentries ▸ List.mem_singleton_self _
  · obtain ⟨next, hnext, -⟩ := hnew rfl fun entry hentry => absurd hentry List.not_mem_nil
    exact ⟨next, hnext⟩

end StyleRegistry

end FrameExport
