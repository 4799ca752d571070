import FrameExport.Proofs.Style.History

/-!
# Collecting into any registry

A registry into which a forest is collected may have styles already, and some of its tables may be
frozen.  The forest is refused at the first style that is new to a frozen table; the styles before it
stay registered, and nothing is frozen (`collect_of_refused`).  If there is no such style, all tables
are extended and frozen (`collect_of_accepted`).

The headline is `StyleRegistry.collected_or_refused`, for all registries that can have come about.
-/

namespace FrameExport

namespace Node

variable {n : Node} {forest : List (Tree Node)} {d : Descriptor}

theorem mem_descriptors : d ∈ n.descriptors ↔ ∃ kind, n.descriptor? kind = some d := by
  have hparts : n.descriptors = (n.descriptor? .text).toList ++ (n.descriptor? .fill).toList
      ++ (n.descriptor? .stroke).toList := rfl
  rw [hparts, List.mem_append, List.mem_append, Option.mem_toList, Option.mem_toList,
    Option.mem_toList, or_assoc]
  constructor
  · rintro (h | h | h)
    · exact ⟨.text, h⟩
    · exact ⟨.fill, h⟩
    · exact ⟨.stroke, h⟩
  · rintro ⟨kind, h⟩
    cases kind with
    | text => exact Or.inl h
    | fill => exact Or.inr (Or.inl h)
    | stroke => exact Or.inr (Or.inr h)

theorem mem_descriptorsOf :
    d ∈ descriptorsOf forest
      ↔ ∃ n ∈ Tree.preorderAll forest, ∃ kind, n.descriptor? kind = some d := by
  simp only [descriptorsOf, List.mem_flatMap, mem_descriptors]

end Node

namespace StyleRegistry

variable {registry : StyleRegistry} {forest : List (Tree Node)} {ds before rest : List Descriptor}
  {d : Descriptor}

theorem refuses_iff : registry.refuses d = true
    ↔ (registry.table d.kind).frozen = true ∧ (registry.table d.kind).get? d.key = none :=
  StyleTable.refuses_iff

/-! ### Forests that are refused or not -/

/-- A forest is refused at the first of its styles that is new to a frozen table. -/
theorem collect_of_refused (hforest : Node.descriptorsOf forest = before ++ d :: rest)
    (hbefore : ∀ e ∈ before, ¬ registry.refuses e = true) (hd : registry.refuses d = true) :
    collect forest registry = (some ⟨(registry.table d.kind).kind⟩, registry.extend before) := by
  rw [collect_eq, hforest, registerAll_of_refused hbefore hd]
  rfl

/-- If no style is new to a frozen table, all are registered and all tables are frozen. -/
theorem collect_of_accepted (h : ∀ d ∈ Node.descriptorsOf forest, ¬ registry.refuses d = true) :
    collect forest registry = (none, (registry.extend (Node.descriptorsOf forest)).freeze) := by
  rw [collect_eq, registerAll_of_accepted h]
  rfl

/-- A style that was registered is found, also when the tables are frozen. -/
theorem isSome_classOf?_freeze_extend (hd : d ∈ ds) (h : ¬ registry.refuses d = true) :
    ((registry.extend ds).freeze.classOf? d).isSome = true := by
  have hmem : d ∈ ofKind d.kind ds := List.mem_filter.mpr ⟨hd, by simp⟩
  rw [classOf?, Option.isSome_map, table_freeze, table_extend, ← Option.ne_none_iff_isSome]
  show ((registry.table d.kind).extend (ofKind d.kind ds)).get? d.key ≠ none
  cases hfrozen : (registry.table d.kind).frozen with
  | true =>
    rw [StyleTable.extend_of_frozen hfrozen]
    exact fun hnone => h (refuses_iff.mpr ⟨hfrozen, hnone⟩)
  | false =>
    rw [ne_eq, StyleTable.get?_extend_eq_none_iff hfrozen, not_and, not_not]
    exact fun _ => List.mem_map_of_mem hmem

/-- A forest whose styles are all found in frozen tables changes nothing. -/
theorem collect_of_found (hfrozen : ∀ kind, (registry.table kind).frozen = true)
    (hfound : ∀ d ∈ Node.descriptorsOf forest, (registry.classOf? d).isSome = true) :
    collect forest registry = (none, registry) := by
  have haccepted : ∀ d ∈ Node.descriptorsOf forest, ¬ registry.refuses d = true := by
    intro d hd hrefused
    have hsome := hfound d hd
    rw [classOf?, (refuses_iff.mp hrefused).2] at hsome
    cases hsome
  have hsame : (registry.extend (Node.descriptorsOf forest)).freeze = registry := by
    ext kind
    rw [table_freeze, table_extend, StyleTable.extend_of_frozen (hfrozen kind),
      StyleTable.freeze_of_frozen (hfrozen kind)]
  rw [collect_of_accepted haccepted, hsame]

/-- A style of a forest is refused exactly when its table is frozen and does not have its key. -/
theorem exists_refused_iff :
    (∃ d ∈ Node.descriptorsOf forest, registry.refuses d = true)
      ↔ ∃ n ∈ Tree.preorderAll forest, ∃ kind d, n.descriptor? kind = some d
        ∧ (registry.table kind).frozen = true ∧ (registry.table kind).get? d.key = none := by
  simp only [Node.mem_descriptorsOf, refuses_iff]
  constructor
  · rintro ⟨d, ⟨n, hn, kind, hd⟩, hnew⟩
    rw [Node.kind_of_descriptor? hd] at hnew
    exact ⟨n, hn, kind, d, hd, hnew⟩
  · rintro ⟨n, hn, kind, d, hd, hnew⟩
    rw [← Node.kind_of_descriptor? hd] at hnew
    exact ⟨d, ⟨n, hn, kind, hd⟩, hnew⟩

/-! ### Registries that came about -/

/-- **A forest is collected, or refused at the first style that is new to a frozen table.**  Whatever
happened to a registry before, and whichever of its tables are frozen, collecting a forest into it fails
exactly when some node asks for a style whose table is frozen and does not have its key.

If it fails, it is for the first such style in preorder, a node's typography before its fill before its
stroke.  No table is frozen by it, frozen tables stay as they are, and each of the others has its old
entries followed by those of the styles before the failing one that are new to it, at their first
occurrences and with the numbers that follow.

If it does not fail, all tables are frozen, every style of the forest is found, and collecting the
forest again changes nothing. -/
theorem collected_or_refused (ops : List Operation) (forest : List (Tree Node))
    {error? : Option FrozenTable} {next : StyleRegistry}
    (h : collect forest (after ops) = (error?, next)) :
    (error? ≠ none ↔ ∃ n ∈ Tree.preorderAll forest, ∃ kind d, n.descriptor? kind = some d
        ∧ ((after ops).table kind).frozen = true ∧ ((after ops).table kind).get? d.key = none)
      ∧ (∀ error, error? = some error →
        ∃ before d rest, Node.descriptorsOf forest = before ++ d :: rest
          ∧ error = ⟨d.kind⟩
          ∧ (after ops).refuses d = true
          ∧ (∀ e ∈ before, ¬ (after ops).refuses e = true)
          ∧ ∀ kind, (next.table kind).frozen = ((after ops).table kind).frozen
            ∧ (((after ops).table kind).frozen = true → next.table kind = (after ops).table kind)
            ∧ (((after ops).table kind).frozen = false →
              (next.table kind).entries = ((after ops).table kind).entries
                ++ StyleTable.numberedFrom kind ((after ops).table kind).entries.length
                  (((after ops).table kind).newTo (ofKind kind before))))
      ∧ (error? = none →
        (∀ kind, (next.table kind).frozen = true)
          ∧ (∀ n ∈ Tree.preorderAll forest, ∀ kind d, n.descriptor? kind = some d →
            (next.classOf? d).isSome = true)
          ∧ collect forest next = (none, next)) := by
  have hkind : ∀ kind, ((after ops).table kind).kind = kind := fun kind => (numbered_after ops kind).1
  rw [← exists_refused_iff]
  -- the first style that is refused, if there is one, parts the styles of the forest
  cases hfind : (Node.descriptorsOf forest).find? (after ops).refuses with
  | some d =>
    obtain ⟨hd, before, rest, hforest, hbefore⟩ := List.find?_eq_some_iff_append.mp hfind
    have hnone : ∀ e ∈ before, ¬ (after ops).refuses e = true := by simpa using hbefore
    rw [collect_of_refused hforest hnone hd, hkind] at h
    obtain ⟨rfl, rfl⟩ := Prod.mk.inj h
    have hmem : d ∈ Node.descriptorsOf forest := List.mem_of_find?_eq_some hfind
    refine ⟨⟨fun _ => ⟨d, hmem, hd⟩, fun _ => nofun⟩, fun error herror => ?_, nofun⟩
    refine ⟨before, d, rest, hforest, (Option.some.inj herror).symm, hd, hnone, fun kind => ?_⟩
    rw [table_extend]
    refine ⟨StyleTable.frozen_extend _ _, fun hfrozen => StyleTable.extend_of_frozen hfrozen _,
      fun hopen => ?_⟩
    rw [StyleTable.entries_extend hopen, hkind]
  | none =>
    have haccepted := List.find?_eq_none.mp hfind
    rw [collect_of_accepted haccepted] at h
    obtain ⟨rfl, rfl⟩ := Prod.mk.inj h
    have hfrozen : ∀ kind,
        ((((after ops).extend (Node.descriptorsOf forest)).freeze).table kind).frozen = true := by
      intro kind
      rw [table_freeze]
      rfl
    have hfound : ∀ d ∈ Node.descriptorsOf forest,
        ((((after ops).extend (Node.descriptorsOf forest)).freeze).classOf? d).isSome = true :=
      fun d hd => isSome_classOf?_freeze_extend hd (haccepted d hd)
    refine ⟨⟨fun hne => absurd rfl hne, fun ⟨d, hd, hrefuses⟩ => absurd hrefuses (haccepted d hd)⟩,
      fun error herror => ?_, fun _ => ⟨hfrozen, fun n hn kind d hd => ?_,
        collect_of_found hfrozen hfound⟩⟩
    · cases herror
    · exact hfound d (Node.mem_descriptorsOf.mpr ⟨n, hn, kind, hd⟩)

/-- A text with a fill. -/
def filledText : Tree Node :=
  .leaf (.ofSource .zero .zero
    { SourceNode.blank with type := textKind, fills := [[("type", .str "SOLID")]] })

/-- The table of fills is frozen with another fill in it.  Then the typography of the text is still
registered, its fill is refused, and nothing else changes. -/
theorem collected_or_refused_filledText :
    ∃ next, collect [filledText] (after [.register (.fill []), .freezeTable .fill])
        = (some ⟨.fill⟩, next)
      ∧ next.table .fill = (after [.register (.fill []), .freezeTable .fill]).table .fill
      ∧ (next.table .text).frozen = false
      ∧ (next.table .text).entries.map StyleEntry.className = [StyleKind.text.className 0] := by
  have hcollect : ∃ next, collect [filledText] (after [.register (.fill []), .freezeTable .fill])
      = (some ⟨.fill⟩, next)
      ∧ (next.table .text).entries.map StyleEntry.className = [StyleKind.text.className 0] :=
    ⟨_, rfl, rfl⟩
  obtain ⟨next, hnext, htext⟩ := hcollect
  obtain ⟨-, hrefused, -⟩ := collected_or_refused _ _ hnext
  obtain ⟨before, d, rest, -, -, -, -, htables⟩ := hrefused _ rfl
  obtain ⟨-, hfill, -⟩ := htables .fill
  obtain ⟨hopen, -, -⟩ := htables .text
  exact ⟨next, hnext, hfill rfl, hopen, htext⟩

end StyleRegistry

end FrameExport
