import ApiGraph.Registry
import Mathlib.Data.List.Nodup
import Mathlib.Data.List.Perm.Subperm
import Mathlib.Data.List.Range

/-! The first free variant of a name. The variants of a name differ from each other and from the
name, so that a list of taken names, the name among them, cannot hold as many variants as it has
members. The search ends before its fuel does, at a variant that is free. -/

namespace ApiGraph.Registry

theorem toList_numbered (name : String) (k : Nat) :
    (numbered name k).toList = name.toList ++ Nat.toDigits 10 k := by
  simp [numbered]

theorem numbered_injective (name : String) : Function.Injective (numbered name) := by
  intro i j h
  have hl := congrArg String.toList h
  rw [toList_numbered, toList_numbered, List.append_cancel_left_eq] at hl
  rw [← Nat.ofDigitChars_ten_toDigits (n := i), hl, Nat.ofDigitChars_ten_toDigits]

theorem numbered_ne_self (name : String) (k : Nat) : numbered name k ≠ name := by
  intro h
  have hl := congrArg String.toList h
  rw [toList_numbered] at hl
  exact Nat.toDigits_ne_nil (List.append_right_eq_self.1 hl)

/-- What the search finds: the first variant in reach that is free, or the last one in reach. -/
theorem seek_spec (taken : List String) (name : String) (fuel k : Nat) :
    ∃ d ≤ fuel, seek taken name fuel k = numbered name (k + d) ∧
      (∀ i < d, numbered name (k + i) ∈ taken) ∧ (d < fuel → numbered name (k + d) ∉ taken) := by
  induction fuel generalizing k with
  | zero => exact ⟨0, le_rfl, rfl, fun i hi => absurd hi (Nat.not_lt_zero i), fun h => by omega⟩
  | succ fuel ih =>
    unfold seek
    split
    · next hk =>
      obtain ⟨d, hd, hs, ht, hf⟩ := ih (k + 1)
      refine ⟨d + 1, by omega, by rw [hs, Nat.add_right_comm, Nat.add_assoc], fun i hi => ?_, ?_⟩
      · cases i with
        | zero => simpa using hk
        | succ i =>
          have := ht i (by omega)
          rwa [Nat.add_right_comm, Nat.add_assoc] at this
      · intro h
        have := hf (by omega)
        rwa [Nat.add_right_comm, Nat.add_assoc] at this
    · next hk => exact ⟨0, by omega, rfl, fun i hi => by omega, fun _ => by simpa using hk⟩

/-- A list that holds a name holds fewer of its variants than it has members. -/
theorem exists_numbered_not_mem {taken : List String} {name : String} (h : name ∈ taken) (k : Nat) :
    ∃ i < taken.length, numbered name (k + i) ∉ taken := by
  by_contra hall
  push Not at hall
  let candidates := name :: (List.range taken.length).map fun i => numbered name (k + i)
  have hnd : candidates.Nodup := by
    refine List.nodup_cons.2 ⟨?_, List.nodup_range.map (fun i j hij => ?_)⟩
    · intro hm
      obtain ⟨i, -, hi⟩ := List.mem_map.1 hm
      exact numbered_ne_self name (k + i) hi
    · exact Nat.add_left_cancel (numbered_injective name hij)
  have hsub : candidates ⊆ taken := by
    intro x hx
    rcases List.mem_cons.1 hx with rfl | hx
    · exact h
    · obtain ⟨i, hi, rfl⟩ := List.mem_map.1 hx
      exact hall i (List.mem_range.1 hi)
  have hlen := (List.subperm_of_subset hnd hsub).length_le
  simp only [candidates, List.length_cons, List.length_map, List.length_range] at hlen
  omega

/-- The free variant of a taken name is its least variant, from two on, that is free. -/
theorem freeVariant_spec {taken : List String} {name : String} (h : name ∈ taken) :
    ∃ k ≥ 2, freeVariant taken name = numbered name k ∧ numbered name k ∉ taken ∧
      ∀ i, 2 ≤ i → i < k → numbered name i ∈ taken := by
  obtain ⟨d, hd, hs, ht, hf⟩ := seek_spec taken name taken.length 2
  obtain ⟨i, hi, hn⟩ := exists_numbered_not_mem h 2
  have hdi : d ≤ i := by
    by_contra hlt
    exact hn (ht i (by omega))
  refine ⟨2 + d, by omega, ?_, hf (by omega), fun j h2 hj => ?_⟩
  · rw [freeVariant, if_pos (by simpa using h), hs]
  · have := ht (j - 2) (by omega)
    rwa [show 2 + (j - 2) = j by omega] at this

theorem freeVariant_of_not_mem {taken : List String} {name : String} (h : name ∉ taken) :
    freeVariant taken name = name := by
  rw [freeVariant, if_neg (by simpa using h)]

theorem freeVariant_not_mem (taken : List String) (name : String) :
    freeVariant taken name ∉ taken := by
  by_cases h : name ∈ taken
  · obtain ⟨k, -, hk, hf, -⟩ := freeVariant_spec h
    rwa [hk]
  · rwa [freeVariant_of_not_mem h]

theorem prefix_freeVariant (taken : List String) (name : String) :
    name.toList <+: (freeVariant taken name).toList := by
  by_cases h : name ∈ taken
  · obtain ⟨k, -, hk, -⟩ := freeVariant_spec h
    rw [hk, toList_numbered]
    exact List.prefix_append _ _
  · exact ⟨[], by rw [freeVariant_of_not_mem h, List.append_nil]⟩

theorem freeName_not_mem (r : Registry) (name : String) : r.freeName name ∉ r.taken :=
  freeVariant_not_mem r.taken name

end ApiGraph.Registry
