import ApiGraph.Dict

/-! Dictionaries that are written entry by entry. -/

namespace ApiGraph.Dict

variable {κ α β : Type} [BEq κ] [LawfulBEq κ] {d : Dict κ α} {entries more : List (κ × α)} {k : κ}
  {v : α}

theorem nodup_keys_merge (entries : List (κ × α)) (h : (keys d).Nodup) :
    (keys (merge d entries)).Nodup := by
  unfold merge
  induction entries generalizing d with
  | nil => exact h
  | cons x entries ih => exact ih (nodup_keys_put x.1 x.2 h)

/-- However it is written, a dictionary has no key twice. -/
theorem nodup_keys_ofEntries (entries : List (κ × α)) : (keys (ofEntries entries)).Nodup :=
  nodup_keys_merge entries List.nodup_nil

theorem mem_merge {x : κ × α} (h : x ∈ merge d entries) : x ∈ d ∨ x ∈ entries := by
  unfold merge at h
  induction entries generalizing d with
  | nil => exact Or.inl h
  | cons y entries ih =>
    rcases ih h with hp | he
    · rcases mem_put hp with hd | rfl
      · exact Or.inl hd
      · exact Or.inr List.mem_cons_self
    · exact Or.inr (List.mem_cons_of_mem _ he)

theorem mem_ofEntries {x : κ × α} (h : x ∈ ofEntries entries) : x ∈ entries := by
  rcases mem_merge h with hn | he
  · cases hn
  · exact he

theorem mem_keys_merge : k ∈ keys (merge d entries) ↔ k ∈ keys d ∨ k ∈ keys entries := by
  unfold merge
  induction entries generalizing d with
  | nil => exact (or_iff_left List.not_mem_nil).symm
  | cons x entries ih =>
    rw [List.foldl_cons, ih, mem_keys_put, or_assoc]
    exact or_congr_right List.mem_cons.symm

theorem mem_keys_ofEntries : k ∈ keys (ofEntries entries) ↔ k ∈ keys entries :=
  mem_keys_merge.trans (or_iff_right List.not_mem_nil)

/-- Entries with different keys stand in the place of what was written before. -/
theorem lookup_merge (hn : (keys entries).Nodup) (d : Dict κ α) (k : κ) :
    List.lookup k (merge d entries) = (List.lookup k entries).or (List.lookup k d) := by
  unfold merge
  induction entries generalizing d with
  | nil => rfl
  | cons x entries ih =>
    obtain ⟨head, tail⟩ := List.nodup_cons.1 hn
    rw [List.foldl_cons, ih tail, List.lookup_cons]
    cases hk : k == x.1 with
    | true =>
      obtain rfl := eq_of_beq hk
      have absent : List.lookup x.1 entries = none := by
        rw [← Option.not_isSome_iff_eq_none]
        exact fun hx => head ((mem_keys_iff_has entries x.1).2 hx)
      rw [absent, lookup_put_self]
      rfl
    | false => rw [lookup_put_of_ne d x.2 hk]

omit [LawfulBEq κ] in
/-- Nothing changes when what is there is written again. -/
theorem put_of_lookup (h : List.lookup k d = some v) : put d k v = d := by
  induction d with
  | nil => cases h
  | cons x d ih =>
    obtain ⟨j, w⟩ := x
    rw [List.lookup_cons] at h
    unfold put
    split
    · next hk =>
      rw [hk] at h
      rw [Option.some.inj h]
    · next hk => rw [ih (by simpa [hk] using h)]

omit [LawfulBEq κ] in
theorem merge_of_lookup (h : ∀ x ∈ entries, List.lookup x.1 d = some x.2) : merge d entries = d := by
  unfold merge
  induction entries with
  | nil => rfl
  | cons x entries ih =>
    obtain ⟨here, rest⟩ := List.forall_mem_cons.1 h
    rw [List.foldl_cons, put_of_lookup here]
    exact ih rest

/-- Entries with different keys may be written twice. -/
theorem merge_merge (hn : (keys entries).Nodup) (d : Dict κ α) :
    merge (merge d entries) entries = merge d entries := by
  refine merge_of_lookup fun x hx => ?_
  rw [lookup_merge hn, lookup_of_mem hn hx]
  rfl

/-- Entries whose keys are new are written at the end. -/
theorem merge_of_disjoint (hn : (keys entries).Nodup) (hd : ∀ k ∈ keys entries, k ∉ keys d) :
    merge d entries = d ++ entries := by
  unfold merge
  induction entries generalizing d with
  | nil => exact (List.append_nil d).symm
  | cons x entries ih =>
    obtain ⟨head, tail⟩ := List.nodup_cons.1 hn
    have new : has d x.1 = false := by
      rw [Bool.eq_false_iff]
      exact fun hx => hd x.1 List.mem_cons_self ((mem_keys_iff_has d x.1).2 hx)
    rw [List.foldl_cons, put_of_not_has d x.1 x.2 new, ih tail, List.append_assoc]
    · rfl
    · intro k hk hm
      rw [keys, List.map_append, List.mem_append] at hm
      rcases hm with hm | hm
      · exact hd k (List.mem_cons_of_mem _ hk) hm
      · rw [List.map_singleton, List.mem_singleton] at hm
        exact head (hm ▸ hk)

/-- Entries with different keys are their own dictionary. -/
theorem ofEntries_of_nodup (h : (keys entries).Nodup) : ofEntries entries = entries :=
  merge_of_disjoint h fun _ _ => List.not_mem_nil

omit [BEq κ] [LawfulBEq κ] in
theorem keys_map (d : Dict κ α) (f : α → β) : keys (d.map fun p => (p.1, f p.2)) = keys d := by
  rw [keys, List.map_map]
  rfl

omit [LawfulBEq κ] in
theorem lookup_map (d : Dict κ α) (f : α → β) (k : κ) :
    List.lookup k (d.map fun p => (p.1, f p.2)) = (List.lookup k d).map f := by
  induction d with
  | nil => rfl
  | cons x d ih =>
    rw [List.map_cons, List.lookup_cons, List.lookup_cons, ih]
    split <;> rfl

/-- The entries with keys of one kind. -/
theorem lookup_filter (d : Dict κ α) (p : κ → Bool) (k : κ) :
    List.lookup k (d.filter fun x => p x.1) = if p k then List.lookup k d else none := by
  induction d with
  | nil => split <;> rfl
  | cons x d ih =>
    obtain ⟨j, v⟩ := x
    rw [List.filter_cons, List.lookup_cons]
    cases hk : k == j with
    | true =>
      obtain rfl := eq_of_beq hk
      cases hp : p k <;> simp [hp, ih]
    | false => cases hp : p j <;> simp [hk, ih, List.lookup_cons]

/-- What is left without a key. -/
theorem lookup_remove (d : Dict κ α) (k j : κ) :
    List.lookup j (d.filter fun p => p.1 != k) = if j == k then none else List.lookup j d := by
  induction d with
  | nil => split <;> rfl
  | cons p rest ih =>
    obtain ⟨i, v⟩ := p
    rw [List.filter_cons, List.lookup_cons]
    cases hi : i == k with
    | true =>
      rw [bne, hi, Bool.not_true, if_neg Bool.false_ne_true, ih, eq_of_beq hi]
      cases hj : j == k <;> rfl
    | false =>
      rw [bne, hi, Bool.not_false, if_pos rfl, List.lookup_cons, ih]
      cases hj : j == i with
      | true =>
        rw [eq_of_beq hj, hi]
        rfl
      | false => rfl

end ApiGraph.Dict
