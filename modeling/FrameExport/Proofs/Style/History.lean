import FrameExport.Proofs.Style.Collection

/-!
# What can have happened to a registry

A registry begins empty, and from then on styles are registered and looked up, tables are frozen and
forests are collected, in any order.  `StyleRegistry.after` is the registry after such operations.

All of them come down to registering one style and freezing one table, so a property of tables that
these two keep holds of the tables of every registry (`tables_induction`).  The first such property:
the classes of a table are those of its kind, numbered from zero without gaps (`numbered_after`).
-/

namespace FrameExport

namespace StyleRegistry

/-- What can be done with a registry. -/
inductive Operation where
  | register (d : Descriptor)
  | lookUp (d : Descriptor)
  | freezeTable (kind : StyleKind)
  | freeze
  | collect (forest : List (Tree Node))

/-- The registry after an operation; one that is refused changes nothing but what it did before it
was refused. -/
def perform (registry : StyleRegistry) : Operation → StyleRegistry
  | .register d =>
    match registry.register d with
    | .ok (_, next) => next
    | .error _ => registry
  | .lookUp _ => registry
  | .freezeTable kind => registry.freezeTable kind
  | .freeze => registry.freeze
  | .collect forest => (collect forest registry).2

/-- The registry after operations, empty before the first one. -/
def after (ops : List Operation) : StyleRegistry := ops.foldl perform empty

/-! ### Induction over what happened -/

variable {P : StyleRegistry → Prop} {registry : StyleRegistry}

theorem freeze_eq (registry : StyleRegistry) :
    registry.freeze
      = ((registry.freezeTable .text).freezeTable .fill).freezeTable .stroke := rfl

theorem registerAll_induction
    (hregister : ∀ r d className next, P r → r.register d = .ok (className, next) → P next)
    (ds : List Descriptor) (h : P registry) : P (registerAll ds registry).2 := by
  induction ds generalizing registry with
  | nil => exact h
  | cons d ds ih =>
    rw [registerAll]
    cases hd : registry.register d with
    | ok result => exact ih (hregister _ _ _ _ h hd)
    | error error => exact h

/-- What is kept by registering one style and by freezing one table is kept by all operations. -/
theorem foldl_perform_induction
    (hregister : ∀ r d className next, P r → r.register d = .ok (className, next) → P next)
    (hfreeze : ∀ r kind, P r → P (r.freezeTable kind)) (ops : List Operation) (h : P registry) :
    P (ops.foldl perform registry) := by
  have hall : ∀ r, P r → P r.freeze := by
    intro r h
    rw [freeze_eq]
    exact hfreeze _ _ (hfreeze _ _ (hfreeze _ _ h))
  have hstep : ∀ r op, P r → P (r.perform op) := by
    intro r op h
    cases op with
    | register d =>
      rw [perform]
      split
      · exact hregister _ _ _ _ h ‹_›
      · exact h
    | lookUp d => exact h
    | freezeTable kind => exact hfreeze r kind h
    | freeze => exact hall r h
    | collect forest =>
      have hds := registerAll_induction hregister (Node.descriptorsOf forest) h
      rw [perform, collect_eq]
      -- the tables are frozen only if no style was refused
      cases hcollected : registerAll (Node.descriptorsOf forest) r with
      | mk refused next =>
        rw [hcollected] at hds
        cases refused with
        | none => exact hall next hds
        | some error => exact hds
  induction ops generalizing registry with
  | nil => exact h
  | cons op ops ih => exact ih (hstep registry op h)

/-! ### Tables of a registry -/

@[simp] theorem setTable_table (registry : StyleRegistry) (kind : StyleKind) :
    registry.setTable kind (registry.table kind) = registry := by
  cases kind <;> rfl

/-- A registered style is registered in the table of its kind. -/
theorem register_eq_ok_iff {d : Descriptor} {className : String} {next : StyleRegistry} :
    registry.register d = .ok (className, next)
      ↔ ∃ table, (registry.table d.kind).register d.key d.payload d.weight = .ok (className, table)
        ∧ next = registry.setTable d.kind table := by
  unfold register
  cases (registry.table d.kind).register d.key d.payload d.weight with
  | error error => simp [Except.map]
  | ok result =>
    obtain ⟨c, table⟩ := result
    simp only [Except.map, Except.ok.injEq, Prod.mk.injEq]
    constructor
    · rintro ⟨rfl, rfl⟩
      exact ⟨table, ⟨rfl, rfl⟩, rfl⟩
    · rintro ⟨table, ⟨rfl, rfl⟩, rfl⟩
      exact ⟨rfl, rfl⟩

/-- What holds of the tables of a registry and is kept by registering a style in a table and by
freezing it holds of the tables after any operations. -/
theorem tables_induction {P : StyleKind → StyleTable → Prop}
    (hregister : ∀ kind table key payload weight className next, P kind table →
      table.register key payload weight = .ok (className, next) → P kind next)
    (hfreeze : ∀ kind table, P kind table → P kind table.freeze) (ops : List Operation)
    (h : ∀ kind, P kind (registry.table kind)) (kind : StyleKind) :
    P kind ((ops.foldl perform registry).table kind) := by
  -- one table is replaced at most, and the others stay
  have hset : ∀ (r : StyleRegistry) l table, (∀ kind, P kind (r.table kind)) → P l table →
      ∀ kind, P kind ((r.setTable l table).table kind) := by
    intro r l table h htable kind
    rw [table_setTable]
    split
    · rename_i hkind
      rw [hkind]
      exact htable
    · exact h kind
  revert kind
  refine foldl_perform_induction (P := fun r => ∀ kind, P kind (r.table kind)) ?_ ?_ ops h
  · intro r d className next h hnext
    obtain ⟨table, htable, rfl⟩ := register_eq_ok_iff.mp hnext
    exact hset r d.kind table h (hregister _ _ _ _ _ _ _ (h d.kind) htable)
  · intro r l h
    exact hset r l _ h (hfreeze _ _ (h l))

end StyleRegistry

namespace StyleTable

variable {kind : StyleKind} {table next : StyleTable} {key className : String}
  {payload weight : Json}

/-! ### What registering does -/

/-- A registered style is one that is there already, and the table stays as it is, or a new one in a
table that is not frozen, where it becomes the last. -/
theorem register_cases (h : table.register key payload weight = .ok (className, next)) :
    (∃ entry, table.get? key = some entry ∧ className = entry.className ∧ next = table)
      ∨ (table.get? key = none ∧ table.frozen = false
        ∧ className = table.kind.className table.entries.length
        ∧ next = table.push key payload weight) := by
  unfold register at h
  cases hget : table.get? key with
  | some entry =>
    rw [hget] at h
    obtain ⟨rfl, rfl⟩ := Prod.mk.inj (Except.ok.inj h)
    exact Or.inl ⟨entry, rfl, rfl, rfl⟩
  | none =>
    rw [hget] at h
    cases hfrozen : table.frozen with
    | true => simp [hfrozen] at h
    | false =>
      simp only [hfrozen, Bool.false_eq_true, if_false] at h
      obtain ⟨rfl, rfl⟩ := Prod.mk.inj (Except.ok.inj h)
      exact Or.inr ⟨rfl, rfl, rfl, rfl⟩

/-! ### Numbered classes -/

/-- The table is of a kind, and its classes are those of the kind in order. -/
def Numbered (kind : StyleKind) (table : StyleTable) : Prop :=
  table.kind = kind
    ∧ ∀ i entry, table.entries[i]? = some entry → entry.className = kind.className i

theorem numbered_empty (kind : StyleKind) : Numbered kind (empty kind) := by
  refine ⟨rfl, fun i entry h => ?_⟩
  cases h

theorem Numbered.freeze (h : Numbered kind table) : Numbered kind table.freeze := h

theorem Numbered.push (h : Numbered kind table) (key : String) (payload weight : Json) :
    Numbered kind (table.push key payload weight) := by
  refine ⟨h.1, fun i entry hentry => ?_⟩
  rw [entries_push, List.getElem?_append] at hentry
  split at hentry
  · exact h.2 i entry hentry
  · -- behind the old entries there is one place only
    obtain ⟨hi, rfl⟩ := List.getElem?_eq_some_iff.mp hentry
    rw [List.length_singleton] at hi
    have hlast : i = table.entries.length := by omega
    rw [List.getElem_singleton, hlast, ← h.1]

theorem Numbered.register (h : Numbered kind table)
    (hregister : table.register key payload weight = .ok (className, next)) :
    Numbered kind next := by
  obtain ⟨entry, -, -, rfl⟩ | ⟨-, -, -, rfl⟩ := register_cases hregister
  · exact h
  · exact h.push key payload weight

/-- What is found in a numbered table has a class of its kind. -/
theorem Numbered.exists_className (h : Numbered kind table) {entry : StyleEntry}
    (hget : table.get? key = some entry) : ∃ i, entry.className = kind.className i := by
  obtain ⟨i, hi⟩ := List.getElem?_of_mem (List.mem_of_find?_eq_some hget)
  exact ⟨i, h.2 i entry hi⟩

end StyleTable

namespace StyleRegistry

/-- Whatever happened, the tables are numbered. -/
theorem numbered_after (ops : List Operation) (kind : StyleKind) :
    ((after ops).table kind).Numbered kind := by
  refine tables_induction (P := StyleTable.Numbered) ?_ ?_ ops ?_ kind
  · exact fun _ _ _ _ _ _ _ h hregister => h.register hregister
  · exact fun _ _ h => h.freeze
  · intro kind
    rw [table_empty]
    exact StyleTable.numbered_empty kind

/-- Whatever happened, a style that is found has a class of its kind. -/
theorem exists_className_of_classOf? {ops : List Operation} {d : Descriptor} {className : String}
    (h : (after ops).classOf? d = some className) : ∃ i, className = d.kind.className i := by
  obtain ⟨entry, hget, rfl⟩ := Option.map_eq_some_iff.mp h
  exact (numbered_after ops d.kind).exists_className hget

end StyleRegistry

end FrameExport
