import FrameExport.Proofs.Json.ReadValue
import FrameExport.Proofs.Json.Sorted

/-!
# Written values read back

A value is readable if its integers have no more digits than the reader allows and the keys of each
object are distinct (`isReadable`).  What is written of a readable value on one line reads back as
the value itself, whatever white space stands behind the commas and colons (`read_inline`), and every
value that is read from a text is readable (`isReadable_iff_exists_read`).

Sorting the fields keeps a value readable (`isReadable_sorted`), so the canonical text of a readable
value reads back as the value with sorted fields.  Together with `canonical_eq_canonical_iff` this
makes the canonical text a complete name for a value up to the order of fields
(`canonical_complete`): equal for reordered values, different for all others, and the value can be
read off it.
-/

namespace FrameExport.Json

/-! ### Readable values -/

mutual

/-- Whether the integers in a value have few enough digits to be read, and the keys of each object
are distinct. -/
def isReadable : Json → Bool
  | .int n => decide ((digitsOf n.natAbs).length ≤ maxIntDigits)
  | .arr items => itemsReadable items
  | .obj fields => decide (fields.map Prod.fst).Nodup && fieldsReadable fields
  | _ => true

/-- Whether each item is readable. -/
def itemsReadable : List Json → Bool
  | [] => true
  | v :: rest => v.isReadable && itemsReadable rest

/-- Whether the value of each field is readable. -/
def fieldsReadable : List (String × Json) → Bool
  | [] => true
  | (_, v) :: rest => v.isReadable && fieldsReadable rest

end

theorem itemsReadable_iff {vs : List Json} :
    itemsReadable vs = true ↔ ∀ v ∈ vs, v.isReadable = true := by
  induction vs with
  | nil => simp [itemsReadable]
  | cons v vs ih => rw [itemsReadable, Bool.and_eq_true, ih, List.forall_mem_cons]

theorem fieldsReadable_iff {fs : Fields} :
    fieldsReadable fs = true ↔ ∀ f ∈ fs, f.2.isReadable = true := by
  induction fs with
  | nil => simp [fieldsReadable]
  | cons f fs ih =>
    obtain ⟨k, v⟩ := f
    rw [fieldsReadable, Bool.and_eq_true, ih, List.forall_mem_cons]

mutual

/-- Sorting the fields keeps a value readable. -/
theorem isReadable_sorted : ∀ {v : Json}, v.isReadable = true → v.sorted.isReadable = true
  | .arr _ => itemsReadable_sortedItems
  | .obj fs => fun h => by
    rw [isReadable, Bool.and_eq_true, decide_eq_true_eq] at h
    have hperm := perm_sortedObject fs
    have hkeys : ((sortedObject fs).map Prod.fst).Nodup := by
      rw [(hperm.map Prod.fst).nodup_iff, List.map_map]
      exact h.1
    have hvalues : ∀ f ∈ sortedObject fs, f.2.isReadable = true := by
      intro f hf
      obtain ⟨g, hg, rfl⟩ := List.mem_map.mp (hperm.subset hf)
      exact isReadable_sortedFields h.2 g hg
    show isReadable (.obj (sortedObject fs)) = true
    rw [isReadable, decide_eq_true hkeys, fieldsReadable_iff.mpr hvalues]
    rfl
  | .null | .bool _ | .int _ | .double _ | .str _ => id

theorem itemsReadable_sortedItems :
    ∀ {vs : List Json}, itemsReadable vs = true → itemsReadable (sortedItems vs) = true
  | [] => id
  | v :: vs => fun h => by
    rw [itemsReadable, Bool.and_eq_true] at h
    rw [sortedItems, itemsReadable, isReadable_sorted h.1, itemsReadable_sortedItems h.2]
    rfl

theorem isReadable_sortedFields :
    ∀ {fs : List (String × Json)}, fieldsReadable fs = true →
      ∀ f ∈ fs, f.2.sorted.isReadable = true
  | [] => fun _ _ hf => absurd hf List.not_mem_nil
  | (_, v) :: fs => fun h => by
    rw [fieldsReadable, Bool.and_eq_true] at h
    exact List.forall_mem_cons.mpr ⟨isReadable_sorted h.1, isReadable_sortedFields h.2⟩

end

/-! ### Values on one line -/

section Inline

variable {ws ws' : List Char}

mutual

/-- A readable value on one line is read as it was written. -/
theorem readsAs_inline (hws : Blank ws) (hws' : Blank ws') :
    ∀ {v : Json}, v.isReadable = true → ReadsAs (v.inline (',' :: ws) (':' :: ws')) v
  | .null => fun _ => readsAs_word (c := 'n') (by decide) (by decide) fun _ _ => rfl
  | .bool true => fun _ => readsAs_word (c := 't') (by decide) (by decide) fun _ _ => rfl
  | .bool false => fun _ => readsAs_word (c := 'f') (by decide) (by decide) fun _ _ => rfl
  | .int _ => fun h => readsAs_intDigits (of_decide_eq_true h)
  | .double x => fun _ => readsAs_write x
  | .str s => fun _ => readsAs_quoted s
  | .arr [] => fun _ => readsAs_arr_nil blank_nil
  | .arr (v :: vs) => fun h =>
    (readsItems_inlineItems hws hws' h (List.cons_ne_nil v vs)).arr blank_nil
  | .obj [] => fun _ => readsAs_obj_nil blank_nil
  | .obj (f :: fs) => fun h => by
    rw [isReadable, Bool.and_eq_true, decide_eq_true_eq] at h
    exact (readsFields_inlineFields hws hws' h.2 (List.cons_ne_nil f fs)).obj h.1 blank_nil

theorem readsItems_inlineItems (hws : Blank ws) (hws' : Blank ws') :
    ∀ {vs : List Json}, itemsReadable vs = true → vs ≠ [] →
      ReadsItems (inlineItems (',' :: ws) (':' :: ws') vs) vs
  | [] => fun _ hne => absurd rfl hne
  | [v] => fun h _ => by
    rw [itemsReadable, Bool.and_eq_true] at h
    have hread := ReadsItems.single (readsAs_inline hws hws' h.1) blank_nil
    rwa [List.append_nil] at hread
  | v :: w :: vs => fun h _ => by
    rw [itemsReadable, Bool.and_eq_true] at h
    have hrest := readsItems_inlineItems hws hws' h.2 (List.cons_ne_nil w vs)
    exact hrest.cons (readsAs_inline hws hws' h.1) hws

theorem readsFields_inlineFields (hws : Blank ws) (hws' : Blank ws') :
    ∀ {fs : List (String × Json)}, fieldsReadable fs = true → fs ≠ [] →
      ReadsFields (inlineFields (',' :: ws) (':' :: ws') fs) fs
  | [] => fun _ hne => absurd rfl hne
  | [(k, v)] => fun h _ => by
    rw [fieldsReadable, Bool.and_eq_true] at h
    have hread := ReadsFields.single k (readsAs_inline hws hws' h.1) hws' blank_nil
    rwa [List.append_nil] at hread
  | (k, v) :: f :: fs => fun h _ => by
    rw [fieldsReadable, Bool.and_eq_true] at h
    have hrest := readsFields_inlineFields hws hws' h.2 (List.cons_ne_nil f fs)
    exact hrest.cons k (readsAs_inline hws hws' h.1) hws' hws

end

end Inline

/-- What is written of a readable value on one line reads back as the value. -/
theorem read_inline {ws ws' : List Char} (hws : Blank ws) (hws' : Blank ws') {v : Json}
    (hv : v.isReadable = true) :
    Json.read (String.ofList (v.inline (',' :: ws) (':' :: ws'))) = .ok v :=
  (readsAs_inline hws hws' hv).read

/-! ### Values that were read -/

theorem digitsValue_lt {ds : List Char} (hds : ∀ c ∈ ds, c.isDigit = true) (start : Nat) :
    digitsValue start ds < (start + 1) * 10 ^ ds.length := by
  induction ds generalizing start with
  | nil => simp [digitsValue]
  | cons c ds ih =>
    obtain ⟨hc, hrest⟩ := List.forall_mem_cons.mp hds
    have hdigit : c.toNat - '0'.toNat < 10 := by
      have hbounds := Char.isDigit_iff_toNat.mp hc
      have hnine : '9'.toNat = '0'.toNat + 9 := rfl
      omega
    calc digitsValue start (c :: ds)
        = digitsValue (10 * start + (c.toNat - '0'.toNat)) ds := rfl
      _ < (10 * start + (c.toNat - '0'.toNat) + 1) * 10 ^ ds.length := ih hrest _
      _ ≤ ((start + 1) * 10) * 10 ^ ds.length := Nat.mul_le_mul_right _ (by omega)
      _ = (start + 1) * 10 ^ (c :: ds).length := by rw [List.length_cons, pow_succ]; ring

/-- The digits of a number are no more than those it was read from. -/
theorem length_digitsOf_digitsValue_le {ds : List Char} (hds : ∀ c ∈ ds, c.isDigit = true)
    (hne : ds ≠ []) : (digitsOf (digitsValue 0 ds)).length ≤ ds.length := by
  have hlt := digitsValue_lt hds 0
  rw [Nat.zero_add, Nat.one_mul] at hlt
  exact (Nat.length_toDigits_le_iff (by decide) (List.length_pos_iff.mpr hne)).mpr hlt

theorem isDigit_of_mem_splitWhole {cs : List Char} : ∀ c ∈ (splitWhole cs).1, c.isDigit = true := by
  unfold splitWhole
  split
  · simp
  · exact List.all_eq_true.mp List.all_takeWhile

theorem isReadable_of_readNumber {cs rest : List Char} {v : Json}
    (h : readNumber cs = .ok (v, rest)) : v.isReadable = true := by
  unfold readNumber at h
  split at h
  rename_i negative unsigned _
  dsimp only at h
  split at h
  · cases h
  rename_i hempty
  split at h
  -- without fraction and exponent it is an integer, of the digits that were counted
  · split at h
    · cases h
    rename_i hlength
    obtain ⟨rfl, -⟩ := Prod.mk.inj (Except.ok.inj h)
    have hne : (splitWhole unsigned).1 ≠ [] := by simpa using hempty
    have hdigits := length_digitsOf_digitsValue_le isDigit_of_mem_splitWhole hne
    have hvalue : (if negative = true then -(digitsValue 0 (splitWhole unsigned).1 : Int)
        else digitsValue 0 (splitWhole unsigned).1).natAbs = digitsValue 0 (splitWhole unsigned).1 := by
      split <;> omega
    rw [isReadable, hvalue]
    exact decide_eq_true (hdigits.trans (not_lt.mp hlength))
  · obtain ⟨rfl, -⟩ := Prod.mk.inj (Except.ok.inj h)
    rfl

theorem isReadable_of_readAtom {cs rest : List Char} {v : Json}
    (h : readAtom cs = .ok (v, rest)) : v.isReadable = true := by
  unfold readAtom at h
  -- each of the six words denotes a value without digits and keys
  iterate 6
    split at h
    · cases h
      rfl
  exact isReadable_of_readNumber h

/-- Fields become an object with distinct keys. -/
theorem isReadable_ofRead {fs : Fields} (h : ∀ f ∈ fs, f.2.isReadable = true) :
    (ofRead fs).isReadable = true := by
  have hput : ∀ acc : Fields, (acc.map Prod.fst).Nodup → (∀ f ∈ acc, f.2.isReadable = true) →
      (Json.obj (fs.foldl (fun fs f => Fields.put f.1 f.2 fs) acc)).isReadable = true := by
    induction fs with
    | nil =>
      intro acc hkeys hvalues
      rw [List.foldl_nil, isReadable, decide_eq_true hkeys, fieldsReadable_iff.mpr hvalues]
      rfl
    | cons f fs ih =>
      intro acc hkeys hvalues
      obtain ⟨hf, hrest⟩ := List.forall_mem_cons.mp h
      refine ih hrest _ (Fields.nodup_put hkeys f.1 f.2) fun g hg => ?_
      rcases Fields.mem_put hg with rfl | hg
      · exact hf
      · exact hvalues g hg
  exact hput [] List.nodup_nil fun _ hf => absurd hf List.not_mem_nil

/-- Whatever the reader finds is readable, if the members that it found before are. -/
theorem isReadable_of_reads (fuel : Nat) :
    (∀ {cs rest : List Char} {v : Json}, readValue fuel cs = .ok (v, rest) → v.isReadable = true)
      ∧ (∀ {acc : List Json} {cs rest : List Char} {v : Json},
          (∀ w ∈ acc, w.isReadable = true) → readItems fuel acc cs = .ok (v, rest) →
            v.isReadable = true)
      ∧ ∀ {acc : Fields} {cs rest : List Char} {v : Json},
          (∀ f ∈ acc, f.2.isReadable = true) → readFields fuel acc cs = .ok (v, rest) →
            v.isReadable = true := by
  induction fuel with
  | zero => exact ⟨nofun, fun _ => nofun, fun _ => nofun⟩
  | succ n ih =>
    obtain ⟨ihValue, ihItems, ihFields⟩ := ih
    refine ⟨?value, ?items, ?fields⟩
    case value =>
      intro cs rest v h
      unfold readValue at h
      split at h
      · split at h
        · cases h
          rfl
        · cases h
      · split at h
        · cases h
          rfl
        · exact ihItems (fun _ hw => absurd hw List.not_mem_nil) h
      · split at h
        · cases h
          rfl
        · exact ihFields (fun _ hf => absurd hf List.not_mem_nil) h
      · exact isReadable_of_readAtom h
    case items =>
      intro acc cs rest v hacc h
      unfold readItems at h
      split at h
      · cases h
      rename_i w _ hw
      have hall : ∀ u ∈ w :: acc, u.isReadable = true :=
        List.forall_mem_cons.mpr ⟨ihValue hw, hacc⟩
      split at h
      · cases h
        exact itemsReadable_iff.mpr fun u hu => hall u (List.mem_reverse.mp hu)
      · exact ihItems hall h
      · cases h
    case fields =>
      intro acc cs rest v hacc h
      unfold readFields at h
      split at h
      case h_2 => cases h
      split at h
      · cases h
      rename_i key _ _
      split at h
      case h_2 => cases h
      split at h
      · cases h
      rename_i w _ hw
      have hall : ∀ f ∈ (String.ofList key, w) :: acc, f.2.isReadable = true :=
        List.forall_mem_cons.mpr ⟨ihValue hw, hacc⟩
      split at h
      · cases h
        exact isReadable_ofRead fun f hf => hall f (List.mem_reverse.mp hf)
      · exact ihFields hall h
      · cases h

/-- The readable values are those that some text is read as. -/
theorem isReadable_iff_exists_read {v : Json} :
    v.isReadable = true ↔ ∃ text, Json.read text = .ok v := by
  constructor
  · exact fun hv => ⟨_, read_inline blank_nil blank_nil hv⟩
  · rintro ⟨text, h⟩
    unfold Json.read readChars at h
    split at h
    case h_2 => cases h
    case h_3 => cases h
    case h_1 w hw =>
      cases h
      split at hw
      · cases hw
      rename_i rest hread
      split at hw
      · cases hw
        exact (isReadable_of_reads _).1 hread
      · cases hw

/-! ### Canonical texts -/

/-- The canonical text of a readable value reads back as the value with sorted fields. -/
theorem read_canonical {v : Json} (hv : v.isReadable = true) :
    Json.read v.canonical = .ok v.sorted :=
  read_inline blank_nil blank_nil (isReadable_sorted hv)

/-- The canonical text is a complete name for a value up to the order of fields.  Two values have one
text exactly if they are reordered ones of each other, which for objects with distinct keys is a
permutation of fields with reordered values, and for doubles equality: there is one NaN, the two
zeros differ, and no integer is a double.  The text of a readable value reads back as the value up
to the order of fields. -/
theorem canonical_complete :
    (∀ v w : Json, v.canonical = w.canonical ↔ Reordered v w)
      ∧ (∀ fs gs : Fields, (fs.map Prod.fst).Nodup →
          (Reordered (.obj fs) (.obj gs) ↔
            ∃ hs, List.Forall₂ (fun f h => f.1 = h.1 ∧ Reordered f.2 h.2) fs hs ∧ hs.Perm gs))
      ∧ (∀ (n : Int) (x : Double), ¬ Reordered (.int n) (.double x))
      ∧ (∀ x y : Double, Reordered (.double x) (.double y) ↔ x = y)
      ∧ (∀ r, ¬ Reordered (.double (.finite false r)) (.double (.finite true r)))
      ∧ ∀ v : Json, v.isReadable = true →
          ∃ w, Json.read v.canonical = .ok w ∧ Reordered v w := by
  refine ⟨fun _ _ => canonical_eq_canonical_iff, fun fs gs hkeys => ?_, ?_, ?_, ?_, ?_⟩
  · rw [Reordered]
    exact reorderedFields_iff_perm hkeys
  · simp [Reordered]
  · simp [Reordered]
  · simp [Reordered]
  · exact fun v hv => ⟨v.sorted, read_canonical hv, reordered_sorted v⟩

/-- An object with a number of each kind, a text of marks and an object within. -/
def mixedFields : Fields :=
  [("size", .int 12), ("label", .str "a\"b\\,]\x7d"), ("box", .obj [("y", .double .nan), ("x", .null)]),
    ("opacity", .double .one)]

/-- The same fields in another order are equal up to it, and can be read off the text. -/
theorem canonical_complete_mixedFields :
    Reordered (.obj mixedFields) (.obj mixedFields.reverse)
      ∧ ∃ w, Json.read (Json.obj mixedFields).canonical = .ok w ∧ Reordered (.obj mixedFields) w := by
  obtain ⟨-, hperm, -, -, -, hread⟩ := canonical_complete
  refine ⟨(hperm mixedFields mixedFields.reverse (by decide)).mpr ⟨mixedFields, ?_, ?_⟩,
    hread (.obj mixedFields) (by decide)⟩
  · exact List.forall₂_same.mpr fun f _ => ⟨rfl, Reordered.refl f.2⟩
  · exact (List.reverse_perm mixedFields).symm

end FrameExport.Json
