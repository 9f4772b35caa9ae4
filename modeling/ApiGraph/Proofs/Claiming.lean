import ApiGraph.Proofs.FreeVariant
import ApiGraph.Proofs.Resolve.Operation

/-! The search for a free name as the loop that it is: it looks at one candidate after the other
and has no bound of its own. It ends all the same, at the least variant that is free, whatever the
taken names and the name asked for are. Names that were given away one after the other therefore
differ, also where a variant of one name is the name that another one asks for. -/

namespace ApiGraph.Registry

/-- The loop: from a candidate on, and with the number that the next one gets, it ends at a
name. -/
inductive Search (taken : List String) (name : String) : String → Nat → String → Prop where
  | found {candidate : String} {k : Nat} (free : candidate ∉ taken) :
      Search taken name candidate k candidate
  | onward {candidate free : String} {k : Nat} (isTaken : candidate ∈ taken)
      (rest : Search taken name (numbered name k) (k + 1) free) :
      Search taken name candidate k free

/-- A name if it is free, else its variant with the least number, from two on, for which the
variant is free. -/
def IsFirstFree (taken : List String) (name free : String) : Prop :=
  (name ∉ taken ∧ free = name) ∨
    (name ∈ taken ∧ ∃ k ≥ 2, free = numbered name k ∧ numbered name k ∉ taken ∧
      ∀ i, 2 ≤ i → i < k → numbered name i ∈ taken)

variable {taken : List String} {name free free' : String}

theorem isFirstFree_freeVariant (taken : List String) (name : String) :
    IsFirstFree taken name (freeVariant taken name) := by
  by_cases h : name ∈ taken
  · obtain ⟨k, hk, heq, hfree, hleast⟩ := freeVariant_spec h
    exact .inr ⟨h, k, hk, heq, hfree, hleast⟩
  · exact .inl ⟨h, freeVariant_of_not_mem h⟩

theorem IsFirstFree.not_mem (h : IsFirstFree taken name free) : free ∉ taken := by
  obtain ⟨hn, rfl⟩ | ⟨-, k, -, rfl, hn, -⟩ := h
  · exact hn
  · exact hn

/-- The loop cannot end at two names. -/
theorem Search.unique {candidate : String} {k : Nat} (h : Search taken name candidate k free)
    (h' : Search taken name candidate k free') : free' = free := by
  induction h with
  | found hfree =>
    cases h' with
    | found => rfl
    | onward hm => exact absurd hm hfree
  | onward hm _ ih =>
    cases h' with
    | found hfree => exact absurd hm hfree
    | onward _ rest => exact ih rest

/-- From a candidate whose followers are taken up to a free one, the loop ends at that one. -/
theorem search_numbered {d k : Nat} (taken_below : ∀ i < d, numbered name (k + i) ∈ taken)
    (hfree : numbered name (k + d) ∉ taken) :
    Search taken name (numbered name k) (k + 1) (numbered name (k + d)) := by
  induction d generalizing k with
  | zero => exact .found hfree
  | succ d ih =>
    have shift (i : Nat) : k + (i + 1) = k + 1 + i := by omega
    rw [shift d] at hfree ⊢
    refine .onward (taken_below 0 (by omega)) (ih (fun i hi => ?_) hfree)
    rw [← shift]
    exact taken_below (i + 1) (by omega)

theorem IsFirstFree.search (h : IsFirstFree taken name free) : Search taken name name 2 free := by
  obtain ⟨hn, rfl⟩ | ⟨hn, k, hk, rfl, hfree, hleast⟩ := h
  · exact .found hn
  · obtain ⟨d, rfl⟩ := Nat.exists_eq_add_of_le hk
    exact .onward hn (search_numbered (fun i hi => hleast _ (by omega) (by omega)) hfree)

/-- The loop ends at the free variant and nowhere else. -/
theorem search_iff : Search taken name name 2 free ↔ free = freeVariant taken name := by
  have ends := (isFirstFree_freeVariant taken name).search
  refine ⟨fun h => ends.unique h, ?_⟩
  rintro rfl
  exact ends

/-- Names that are asked for one after the other, with those that were given away for them and the
names that are taken before and after. -/
inductive Given : List String → List String → List String → List String → Prop where
  | nil {taken : List String} : Given taken [] [] taken
  | cons {taken names frees after : List String} {name free : String}
      (first : IsFirstFree taken name free) (rest : Given (free :: taken) names frees after) :
      Given taken (name :: names) (free :: frees) after

theorem Given.after_eq {names frees after : List String} (h : Given taken names frees after) :
    after = frees.reverse ++ taken := by
  induction h with
  | nil => rfl
  | cons _ _ ih => rw [ih, List.reverse_cons, List.append_assoc]; rfl

/-- None of the names that were given away was taken before, and no two of them are the same. -/
theorem Given.fresh {names frees after : List String} (h : Given taken names frees after) :
    frees.Nodup ∧ ∀ free ∈ frees, free ∉ taken := by
  induction h with
  | nil => exact ⟨.nil, fun _ h => absurd h List.not_mem_nil⟩
  | cons first _ ih =>
    obtain ⟨distinct, new⟩ := ih
    refine ⟨List.nodup_cons.2 ⟨fun h => new _ h List.mem_cons_self, distinct⟩, fun x hx => ?_⟩
    rcases List.mem_cons.1 hx with rfl | hx
    · exact first.not_mem
    · exact fun hm => new x hx (List.mem_cons_of_mem _ hm)

/-- Gives away a name for each of several, in order. -/
def claimAll (r : Registry) : List String → List String × Registry
  | [] => ([], r)
  | name :: names =>
    let (free, r) := r.claim name
    let (frees, r) := r.claimAll names
    (free :: frees, r)

theorem claimAll_given (r : Registry) (names : List String) :
    Given r.taken names (r.claimAll names).1 (r.claimAll names).2.taken ∧
      (r.claimAll names).2 = { r with taken := (r.claimAll names).2.taken } := by
  induction names generalizing r with
  | nil => exact ⟨.nil, rfl⟩
  | cons name names ih =>
    obtain ⟨given, same⟩ := ih (r.claim name).2
    exact ⟨.cons (isFirstFree_freeVariant r.taken name) given, same⟩

end ApiGraph.Registry

namespace ApiGraph.Resolving

open Registry

variable {p q : Progress}

theorem runs_claimName {name free : String} :
    Runs (Method.claimName name) p free q ↔ free = freeVariant p.methodNames name ∧
      q = { p with methodNames := free :: p.methodNames } := by
  refine ⟨Method.claimName_runs, ?_⟩
  rintro ⟨rfl, rfl⟩
  rfl

theorem claimNames_given (p : Progress) (names : List String) :
    ∃ frees after, Runs (names.mapM Method.claimName) p frees { p with methodNames := after } ∧
      Given p.methodNames names frees after := by
  induction names generalizing p with
  | nil => exact ⟨[], p.methodNames, rfl, .nil⟩
  | cons name names ih =>
    have first := isFirstFree_freeVariant p.methodNames name
    obtain ⟨frees, after, rest, given⟩ :=
      ih { p with methodNames := freeVariant p.methodNames name :: p.methodNames }
    refine ⟨_ :: frees, after, ?_, .cons first given⟩
    rw [List.mapM_cons]
    exact runs_bind.2 ⟨_, _, runs_claimName.2 ⟨rfl, rfl⟩, runs_bind.2 ⟨_, _, rest, rfl⟩⟩

/-- Every search ends, at the name asked for if it is free and else at its least free variant, and
takes that name and no other. Whatever names are asked for one after the other, those that are
given away differ from each other and from the ones that were taken before. -/
theorem search_settles (r : Registry) (p : Progress) (name : String) (names : List String) :
    ((∀ free, Search r.taken name name 2 free ↔ free = r.freeName name) ∧
      IsFirstFree r.taken name (r.freeName name)) ∧
    ((r.claim name).1 = r.freeName name ∧
      (r.claim name).2 = { r with taken := (r.claim name).1 :: r.taken }) ∧
    (∃ free, Search p.methodNames name name 2 free ∧ IsFirstFree p.methodNames name free ∧
      ∀ free' q, Runs (Method.claimName name) p free' q ↔
        free' = free ∧ q = { p with methodNames := free :: p.methodNames }) ∧
    (Given r.taken names (r.claimAll names).1 (r.claimAll names).2.taken ∧
      (r.claimAll names).2 = { r with taken := (r.claimAll names).1.reverse ++ r.taken } ∧
      (r.claimAll names).1.Nodup ∧ ∀ free ∈ (r.claimAll names).1, free ∉ r.taken) ∧
    ∃ frees after, Runs (names.mapM Method.claimName) p frees { p with methodNames := after } ∧
      Given p.methodNames names frees after ∧ after = frees.reverse ++ p.methodNames ∧
      frees.Nodup ∧ ∀ free ∈ frees, free ∉ p.methodNames := by
  obtain ⟨given, same⟩ := claimAll_given r names
  rw [given.after_eq] at same
  obtain ⟨frees, after, ran, given'⟩ := claimNames_given p names
  have first := isFirstFree_freeVariant p.methodNames name
  refine ⟨⟨fun _ => search_iff, isFirstFree_freeVariant r.taken name⟩, ⟨rfl, rfl⟩,
    ⟨_, first.search, first, fun free' q => ?_⟩, ⟨given, same, given.fresh⟩,
    frees, after, ran, given', given'.after_eq, given'.fresh⟩
  rw [runs_claimName]
  constructor
  · rintro ⟨rfl, rfl⟩
    exact ⟨rfl, rfl⟩
  · rintro ⟨rfl, rfl⟩
    exact ⟨rfl, rfl⟩

/-- A variant that someone asked for is passed over. -/
example : (Registry.empty.claimAll ["Pet2", "Pet", "Pet"]).1 = ["Pet2", "Pet", "Pet3"] := by
  decide +kernel

end ApiGraph.Resolving
