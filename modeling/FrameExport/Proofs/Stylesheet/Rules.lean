import FrameExport.Proofs.Fallible
import FrameExport.Proofs.Style.Collection
import FrameExport.Stylesheet.Basic

/-!
# Rules and entries

The rules of a style sheet belong to the entries of the registry one by one (`rules_forall₂`): a rule
selects the class of its entry.  In the registry of a forest no two entries have the same class, so
each class has exactly one entry (`filter_entries_className`) and exactly one rule, and no global rule
selects it (`filter_rules_selector`).
-/

namespace FrameExport

namespace StyleKind

/-- The second letter of a class name tells it from the names in the global rules. -/
theorem exists_toList_className (kind : StyleKind) (i : Nat) :
    ∃ c cs, (kind.className i).toList = c :: 's' :: '-' :: cs := by
  obtain ⟨c, hc⟩ := letters_eq_append kind
  exact ⟨c, digitsOf i, by rw [toList_className, hc]; rfl⟩

theorem blank_notMem_className (kind : StyleKind) (i : Nat) : ' ' ∉ (kind.className i).toList := by
  rw [toList_className, List.mem_append, List.mem_cons, not_or, not_or]
  refine ⟨by cases kind <;> decide, by decide, fun hmem => ?_⟩
  exact absurd (isDigit_of_mem_digitsOf hmem) (by decide)

/-- A name whose second letter is another one is no class name. -/
theorem ne_className_of_second {s : String} {c d : Char} {cs : List Char}
    (hs : s.toList = c :: d :: cs) (hd : d ≠ 's') (kind : StyleKind) (i : Nat) :
    s ≠ kind.className i := by
  rintro rfl
  obtain ⟨c', cs', hc'⟩ := exists_toList_className kind i
  rw [hs] at hc'
  exact hd (List.cons.inj (List.cons.inj hc').2).1

end StyleKind

namespace StyleTable

theorem classNames_numbered (kind : StyleKind) (ds : List Descriptor) :
    (numbered kind ds).map StyleEntry.className = (List.range ds.length).map kind.className := by
  apply List.ext_getElem?
  intro i
  rw [List.getElem?_map, numbered, List.getElem?_mapIdx, List.getElem?_map, Option.map_map]
  by_cases hi : i < ds.length
  · rw [List.getElem?_eq_getElem hi, List.getElem?_range hi]
    rfl
  · rw [List.getElem?_eq_none (not_lt.mp hi),
      List.getElem?_eq_none (by rw [List.length_range]; exact not_lt.mp hi)]
    rfl

theorem nodup_classNames_numbered (kind : StyleKind) (ds : List Descriptor) :
    ((numbered kind ds).map StyleEntry.className).Nodup := by
  rw [classNames_numbered]
  exact List.nodup_range.map fun m n h => (StyleKind.className_inj.mp h).2

end StyleTable

namespace StyleRegistry

variable {kind : StyleKind} {forest : List (Tree Node)} {d : Descriptor} {i : Nat}

/-! ### One entry for each class -/

theorem mem_entries {registry : StyleRegistry} {entry : StyleEntry} :
    entry ∈ registry.entries ↔ ∃ kind, entry ∈ (registry.table kind).entries := by
  rw [entries, List.mem_append, List.mem_append]
  constructor
  · rintro ((h | h) | h)
    · exact ⟨.text, h⟩
    · exact ⟨.fill, h⟩
    · exact ⟨.stroke, h⟩
  · rintro ⟨kind, h⟩
    cases kind
    · exact Or.inl (Or.inl h)
    · exact Or.inl (Or.inr h)
    · exact Or.inr h

/-- The class of an entry tells which table it is in. -/
theorem kind_eq_of_className {k l : StyleKind} {entry entry' : StyleEntry}
    (h : entry ∈ ((ofForest forest).table k).entries)
    (h' : entry' ∈ ((ofForest forest).table l).entries) (heq : entry.className = entry'.className) :
    k = l := by
  obtain ⟨i, d, -, rfl⟩ := mem_entries_ofForest.mp h
  obtain ⟨j, e, -, rfl⟩ := mem_entries_ofForest.mp h'
  exact (StyleKind.className_inj.mp heq).1

/-- No two entries of the registry of a forest have the same class, in whatever tables they are. -/
theorem nodup_classNames (forest : List (Tree Node)) :
    ((ofForest forest).entries.map StyleEntry.className).Nodup := by
  have htable : ∀ kind, (((ofForest forest).table kind).entries.map StyleEntry.className).Nodup := by
    intro kind
    rw [table_ofForest]
    exact StyleTable.nodup_classNames_numbered kind _
  have hdisjoint : ∀ k l, k ≠ l → List.Disjoint
      (((ofForest forest).table k).entries.map StyleEntry.className)
      (((ofForest forest).table l).entries.map StyleEntry.className) := by
    intro k l hkl c hk hl
    obtain ⟨entry, hentry, rfl⟩ := List.mem_map.mp hk
    obtain ⟨entry', hentry', heq⟩ := List.mem_map.mp hl
    exact hkl (kind_eq_of_className hentry hentry' heq.symm)
  rw [entries, List.map_append, List.map_append, List.nodup_append', List.nodup_append',
    List.disjoint_append_left]
  exact ⟨⟨htable .text, htable .fill, hdisjoint .text .fill (by decide)⟩, htable .stroke,
    hdisjoint .text .stroke (by decide), hdisjoint .fill .stroke (by decide)⟩

/-- Among entries of different classes exactly one has the class of an entry. -/
theorem filter_className {entries : List StyleEntry} {entry : StyleEntry}
    (hnodup : (entries.map StyleEntry.className).Nodup) (h : entry ∈ entries) :
    entries.filter (fun e => e.className = entry.className) = [entry] := by
  induction entries with
  | nil => cases h
  | cons first rest ih =>
    rw [List.map_cons, List.nodup_cons] at hnodup
    rcases List.mem_cons.mp h with rfl | hmem
    · rw [List.filter_cons_of_pos (by simp), List.filter_eq_nil_iff.mpr]
      intro e he
      simpa using fun heq => hnodup.1 (List.mem_map.mpr ⟨e, he, heq⟩)
    · rw [List.filter_cons_of_neg, ih hnodup.2 hmem]
      simpa using fun heq => hnodup.1 (List.mem_map.mpr ⟨entry, hmem, heq.symm⟩)

end StyleRegistry

namespace Stylesheet

variable {registry : StyleRegistry} {sheet : Stylesheet} {forest : List (Tree Node)}
  {kind : StyleKind} {entry : StyleEntry} {rule : Rule}

/-! ### One rule for each entry -/

/-- The rule of an entry in the table of a kind. -/
def entryRule : StyleKind → StyleEntry → Except Fault Rule
  | .text => textRule
  | .fill => fillRule
  | .stroke => strokeRule

theorem selector_eq (h : entryRule kind entry = .ok rule) :
    rule.selector = "." ++ entry.className := by
  cases kind with
  | text =>
    simp only [entryRule, textRule] at h
    split at h
    · rw [← Except.ok.inj h]
      rfl
    · cases h
  | fill =>
    obtain ⟨declaration, -, h⟩ := bind_eq_ok_iff.mp h
    rw [← Except.ok.inj h]
    rfl
  | stroke =>
    obtain ⟨declaration, -, h⟩ := bind_eq_ok_iff.mp h
    rw [← Except.ok.inj h]
    rfl

/-- The rules of a style sheet are those of the entries one by one. -/
theorem rules_forall₂ (h : ofRegistry registry = .ok sheet) :
    List.Forall₂ (fun entry rule => ∃ kind, entry ∈ (registry.table kind).entries
      ∧ entryRule kind entry = .ok rule) registry.entries sheet.rules := by
  have hpart : ∀ kind rules, (registry.table kind).entries.mapM (entryRule kind) = .ok rules →
      List.Forall₂ (fun entry rule => ∃ kind, entry ∈ (registry.table kind).entries
        ∧ entryRule kind entry = .ok rule) (registry.table kind).entries rules := by
    intro kind rules hrules
    have hmem := (List.forall₂_and_left (registry.table kind).entries rules).mpr
      ⟨fun entry hentry => hentry, mapM_eq_ok_iff.mp hrules⟩
    exact hmem.imp fun entry rule hentry => ⟨kind, hentry⟩
  obtain ⟨texts, htexts, h⟩ := bind_eq_ok_iff.mp h
  obtain ⟨fills, hfills, h⟩ := bind_eq_ok_iff.mp h
  obtain ⟨strokes, hstrokes, h⟩ := bind_eq_ok_iff.mp h
  rw [← Except.ok.inj h]
  exact List.rel_append (List.rel_append (hpart .text texts htexts) (hpart .fill fills hfills))
    (hpart .stroke strokes hstrokes)

/-- No global rule selects the class of a style. -/
theorem filter_globalRules (kind : StyleKind) (i : Nat) :
    globalRules.filter (fun rule => rule.selector = "." ++ kind.className i) = [] := by
  -- the second letter behind the point is enough to tell the selectors apart
  have hglobal : ∀ rule ∈ globalRules, rule.selector.toList[2]? ≠ some 's' := by decide
  rw [List.filter_eq_nil_iff]
  intro rule hrule
  simp only [decide_eq_true_eq]
  intro heq
  obtain ⟨c, cs, hc⟩ := StyleKind.exists_toList_className kind i
  apply hglobal rule hrule
  rw [heq, String.toList_append, hc]
  rfl

/-- Exactly one rule selects the class of an entry, the one that the entry has. -/
theorem filter_rules_selector (h : ofRegistry (.ofForest forest) = .ok sheet)
    (hentry : entry ∈ ((StyleRegistry.ofForest forest).table kind).entries) :
    ∃ rule, (globalRules ++ sheet.rules).filter
        (fun rule => rule.selector = "." ++ entry.className) = [rule]
      ∧ entryRule kind entry = .ok rule := by
  have hrules := rules_forall₂ h
  have hsame : ∀ e r, (∃ kind, e ∈ ((StyleRegistry.ofForest forest).table kind).entries
      ∧ entryRule kind e = .ok r) →
      (decide (e.className = entry.className) = true
        ↔ decide (r.selector = "." ++ entry.className) = true) := by
    rintro e r ⟨l, -, hr⟩
    simp [selector_eq hr, String.append_right_inj]
  have hfilter := List.rel_filter (fun e r hr => hsame e r hr) hrules
  rw [StyleRegistry.filter_className (StyleRegistry.nodup_classNames forest)
    (StyleRegistry.mem_entries.mpr ⟨kind, hentry⟩)] at hfilter
  -- the entries of the class are one entry, and the rules go with them one by one
  obtain ⟨rule, rest, ⟨l, hl, hrule⟩, hrest, heq⟩ := List.forall₂_cons_left_iff.mp hfilter
  obtain rfl := List.forall₂_nil_left_iff.mp hrest
  obtain rfl := StyleRegistry.kind_eq_of_className hl hentry rfl
  obtain ⟨i, d, -, rfl⟩ := StyleRegistry.mem_entries_ofForest.mp hentry
  refine ⟨rule, ?_, hrule⟩
  rw [List.filter_append]
  exact (congrArg (· ++ _) (filter_globalRules l i)).trans heq

end Stylesheet

end FrameExport
