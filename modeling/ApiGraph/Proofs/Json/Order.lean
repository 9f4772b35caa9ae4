import ApiGraph.Json.Writer

/-! Entries in the order of their keys. What stands under a key keeps its order, so that two lists
of entries have the same sorted form exactly if they have the same values under each key. -/

namespace ApiGraph.Json

variable {α β : Type} {ds es : List (String × α)} {k : String}

/-- The values under a key, in order. An object that was read has at most one. -/
def under (k : String) (entries : List (String × α)) : List α :=
  (entries.filter fun p => p.1 == k).map Prod.snd

theorem under_map (f : α → β) (k : String) (entries : List (String × α)) :
    under k (entries.map fun p => (p.1, f p.2)) = (under k entries).map f := by
  simp [under, List.filter_map, Function.comp_def]

theorem mem_of_mem_under {v : α} (h : v ∈ under k es) : (k, v) ∈ es := by
  obtain ⟨p, hp, rfl⟩ := List.mem_map.1 h
  obtain ⟨hp, hk⟩ := List.mem_filter.1 hp
  rwa [← eq_of_beq hk]

theorem le_trans_key (a b c : String × α) (h₁ : decide (a.1 ≤ b.1) = true)
    (h₂ : decide (b.1 ≤ c.1) = true) : decide (a.1 ≤ c.1) = true :=
  decide_eq_true (String.le_trans (of_decide_eq_true h₁) (of_decide_eq_true h₂))

theorem le_total_key (a b : String × α) : (decide (a.1 ≤ b.1) || decide (b.1 ≤ a.1)) = true := by
  simpa using String.le_total a.1 b.1

theorem pairwise_sortEntries (entries : List (String × α)) :
    (sortEntries entries).Pairwise fun a b => a.1 ≤ b.1 :=
  (List.pairwise_mergeSort le_trans_key le_total_key entries).imp of_decide_eq_true

/-- Sorting keeps the order of what stands under one key. -/
theorem under_sortEntries (k : String) (entries : List (String × α)) :
    under k (sortEntries entries) = under k entries := by
  have hperm : (sortEntries entries).Perm entries := List.mergeSort_perm _ _
  have hsub : (entries.filter fun p => p.1 == k).Sublist (sortEntries entries) := by
    refine List.sublist_mergeSort le_trans_key le_total_key ?_ List.filter_sublist
    refine List.pairwise_of_forall_mem_list fun a ha b hb => ?_
    rw [eq_of_beq (List.mem_filter.1 ha).2, eq_of_beq (List.mem_filter.1 hb).2]
    exact decide_eq_true (String.le_refl k)
  have hfilter := hsub.filter fun p => p.1 == k
  simp only [List.filter_filter, Bool.and_self] at hfilter
  unfold under
  rw [hfilter.eq_of_length (hperm.filter _).length_eq.symm]

/-- Sorted lists with the same values under each key are the same. -/
theorem eq_of_under_eq (hd : ds.Pairwise fun a b => a.1 ≤ b.1) (he : es.Pairwise fun a b => a.1 ≤ b.1)
    (h : ∀ k, under k ds = under k es) : ds = es := by
  induction ds generalizing es with
  | nil =>
    cases es with
    | nil => rfl
    | cons e es =>
      have := h e.1
      simp [under] at this
  | cons d ds ih =>
    cases es with
    | nil =>
      have := h d.1
      simp [under] at this
    | cons e es =>
      have least {d e : String × α} {ds es : List (String × α)}
          (he : (e :: es).Pairwise fun a b => a.1 ≤ b.1)
          (h : under d.1 (d :: ds) = under d.1 (e :: es)) : e.1 ≤ d.1 := by
        have hd : d.2 ∈ under d.1 (e :: es) := h ▸ by simp [under]
        rcases List.mem_cons.1 (mem_of_mem_under hd) with hd | hd
        · exact hd ▸ String.le_refl _
        · exact (List.pairwise_cons.1 he).1 _ hd
      have hk : d.1 = e.1 := String.le_antisymm (least hd (h e.1).symm) (least he (h d.1))
      have hv : d.2 = e.2 := by
        have := h d.1
        simp only [under, List.filter_cons, hk, beq_self_eq_true, if_true, List.map_cons,
          List.cons.injEq] at this
        exact this.1
      obtain rfl : d = e := Prod.ext hk hv
      refine congrArg _ (ih (List.pairwise_cons.1 hd).2 (List.pairwise_cons.1 he).2 fun k => ?_)
      have := h k
      by_cases hdk : (d.1 == k) = true
      · simpa [under, List.filter_cons, hdk] using this
      · simpa [under, List.filter_cons, hdk] using this

theorem sortEntries_eq_iff : sortEntries ds = sortEntries es ↔ ∀ k, under k ds = under k es := by
  constructor
  · intro h k
    rw [← under_sortEntries k ds, h, under_sortEntries]
  · intro h
    refine eq_of_under_eq (pairwise_sortEntries ds) (pairwise_sortEntries es) fun k => ?_
    rw [under_sortEntries, under_sortEntries, h]

end ApiGraph.Json
