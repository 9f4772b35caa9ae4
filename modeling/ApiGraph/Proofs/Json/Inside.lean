import ApiGraph.Pointer

/-! The values inside a value, and the texts of the references among them. A value has finitely
many, and a pointer leads to the value itself or to one inside. -/

namespace ApiGraph.Json

/-- A value stands inside another one, at some depth. -/
inductive Inside (v : Json) : Json → Prop
  | item {items : List Json} (holds : v ∈ items) : Inside v (.arr items)
  | entry {key : String} {entries : List (String × Json)} (holds : (key, v) ∈ entries) :
    Inside v (.obj entries)
  | ofItem {w : Json} {items : List Json} (inside : Inside v w) (holds : w ∈ items) :
    Inside v (.arr items)
  | ofEntry {key : String} {w : Json} {entries : List (String × Json)} (inside : Inside v w)
    (holds : (key, w) ∈ entries) : Inside v (.obj entries)

variable {u v w : Json} {key : String}

theorem Inside.trans (h : Inside u v) (hw : Inside v w) : Inside u w := by
  induction hw with
  | item holds => exact .ofItem h holds
  | entry holds => exact .ofEntry h holds
  | ofItem _ holds ih => exact .ofItem ih holds
  | ofEntry _ holds ih => exact .ofEntry ih holds

theorem inside_get? (h : w.get? key = some v) : Inside v w := by
  cases w with
  | obj entries => exact .entry (Dict.mem_of_lookup h)
  | _ => cases h

theorem get_of_has (h : w.has key = false) : w.get key = .null := by
  rw [has, Option.isSome_eq_false_iff, Option.isNone_iff_eq_none] at h
  rw [get, h, Option.getD_none]

theorem inside_get (h : w.get key ≠ .null) : Inside (w.get key) w := by
  unfold get at h ⊢
  cases hk : w.get? key with
  | none =>
    rw [hk] at h
    exact absurd rfl h
  | some v => exact inside_get? hk

theorem size_le_sizeItems {items : List Json} (h : v ∈ items) : v.size ≤ sizeItems items := by
  induction items with
  | nil => cases h
  | cons w rest ih =>
    rw [sizeItems]
    obtain rfl | h := List.mem_cons.1 h
    · omega
    · have := ih h
      omega

theorem size_le_sizeEntries {entries : List (String × Json)} (h : (key, v) ∈ entries) :
    v.size ≤ sizeEntries entries := by
  induction entries with
  | nil => cases h
  | cons entry rest ih =>
    obtain ⟨k, w⟩ := entry
    rw [sizeEntries]
    obtain h | h := List.mem_cons.1 h
    · obtain ⟨rfl, rfl⟩ := Prod.mk.inj h
      omega
    · have := ih h
      omega

/-- What stands inside is smaller. -/
theorem Inside.size_lt (h : Inside v w) : v.size < w.size := by
  induction h with
  | item holds =>
    have := size_le_sizeItems holds
    rw [size]
    omega
  | entry holds =>
    have := size_le_sizeEntries holds
    rw [size]
    omega
  | ofItem _ holds ih =>
    have := size_le_sizeItems holds
    rw [size]
    omega
  | ofEntry _ holds ih =>
    have := size_le_sizeEntries holds
    rw [size]
    omega

mutual

/-- The texts of a value, those of the references in it included. -/
def texts : Json → List String
  | .str s => [s]
  | .arr items => textsOfItems items
  | .obj entries => textsOfEntries entries
  | _ => []

/-- The texts of some items. -/
def textsOfItems : List Json → List String
  | [] => []
  | v :: rest => texts v ++ textsOfItems rest

/-- The texts of the values of some entries. -/
def textsOfEntries : List (String × Json) → List String
  | [] => []
  | (_, v) :: rest => texts v ++ textsOfEntries rest

end

theorem texts_subset_items {items : List Json} (h : v ∈ items) : v.texts ⊆ textsOfItems items := by
  induction items with
  | nil => cases h
  | cons w rest ih =>
    obtain rfl | h := List.mem_cons.1 h
    · exact List.subset_append_left _ _
    · exact List.subset_append_of_subset_right _ (ih h)

theorem texts_subset_entries {entries : List (String × Json)} (h : (key, v) ∈ entries) :
    v.texts ⊆ textsOfEntries entries := by
  induction entries with
  | nil => cases h
  | cons entry rest ih =>
    obtain h | h := List.mem_cons.1 h
    · subst h
      exact List.subset_append_left _ _
    · exact List.subset_append_of_subset_right _ (ih h)

/-- A value has the texts of what stands inside. -/
theorem Inside.texts_subset (h : Inside v w) : v.texts ⊆ w.texts := by
  induction h with
  | item holds => exact texts_subset_items holds
  | entry holds => exact texts_subset_entries holds
  | ofItem _ holds ih => exact List.Subset.trans ih (texts_subset_items holds)
  | ofEntry _ holds ih => exact List.Subset.trans ih (texts_subset_entries holds)

mutual

/-- A value has no more texts than values. -/
theorem length_texts_le : ∀ v : Json, v.texts.length ≤ v.size
  | .arr items => by
    have := length_textsOfItems_le items
    rw [texts, size]
    omega
  | .obj entries => by
    have := length_textsOfEntries_le entries
    rw [texts, size]
    omega
  | .str _ => by simp [texts, size]
  | .null => by simp [texts, size]
  | .bool _ => by simp [texts, size]
  | .int _ => by simp [texts, size]
  | .float _ => by simp [texts, size]

theorem length_textsOfItems_le : ∀ items : List Json, (textsOfItems items).length ≤ sizeItems items
  | [] => by simp [textsOfItems, sizeItems]
  | v :: rest => by
    have := length_texts_le v
    have := length_textsOfItems_le rest
    rw [textsOfItems, sizeItems, List.length_append]
    omega

theorem length_textsOfEntries_le : ∀ entries : List (String × Json),
    (textsOfEntries entries).length ≤ sizeEntries entries
  | [] => by simp [textsOfEntries, sizeEntries]
  | (_, v) :: rest => by
    have := length_texts_le v
    have := length_textsOfEntries_le rest
    rw [textsOfEntries, sizeEntries, List.length_append]
    omega

end

end ApiGraph.Json

namespace ApiGraph.Pointer

theorem inside_step {v w : Json} {segment : String} (h : step w segment = some v) : v.Inside w := by
  cases w with
  | obj entries => exact .entry (Dict.mem_of_lookup h)
  | arr items =>
    obtain ⟨i, -, hi⟩ := Option.bind_eq_some_iff.1 h
    refine .item ?_
    unfold item? at hi
    split at hi
    · exact List.mem_of_getElem? hi
    · split at hi
      · exact List.mem_of_getElem? hi
      · cases hi
  | _ => cases h

/-- A pointer leads to the document itself or to a value inside. -/
theorem inside_resolve {root v : Json} {ref : String} (h : resolve root ref = some v) :
    v = root ∨ v.Inside root := by
  have path (keys : List String) : ∀ w, keys.foldlM step w = some v → v = w ∨ v.Inside w := by
    induction keys with
    | nil => exact fun w hw => Or.inl (Option.some.inj hw).symm
    | cons key rest ih =>
      intro w hw
      rw [List.foldlM_cons] at hw
      obtain ⟨u, hu, hv⟩ := Option.bind_eq_some_iff.1 hw
      obtain rfl | inside := ih u hv
      · exact Or.inr (inside_step hu)
      · exact Or.inr (inside.trans (inside_step hu))
  unfold resolve at h
  split at h
  · exact path _ root h
  · cases h

end ApiGraph.Pointer
