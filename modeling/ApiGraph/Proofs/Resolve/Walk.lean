import ApiGraph.Proofs.Resolve.Component
import ApiGraph.Proofs.Resolve.Operation
import ApiGraph.Resolve.Walk

/-! What a successful walk through a document has done. -/

namespace ApiGraph

open Resolving

namespace Walk

variable {document node : Json} {self : Resolver} {scope : Scope} {p q : Progress} {name : String}

/-- An operation that is there is resolved, and a notice is left of it. -/
theorem operations_runs {item : Json} {verb : Verb} {rest : List Verb} {methods : List Method}
    (h : Runs (operations document self scope name item (verb :: rest)) p methods q) :
    ((item.get verb.word).isNull = true ∧
      Runs (operations document self scope name item rest) p methods q) ∨
    ∃ m more s, (item.get verb.word).isNull = false ∧
      Runs (Method.resolve document self (scope.down [verb.word]) verb name item
        (item.get verb.word)) p m s ∧
      Runs (operations document self scope name item rest)
        { s with notices := s.notices ++ [.entity [.method] (.method m)] } more q ∧
      methods = m :: more := by
  unfold operations at h
  split at h
  · next hn =>
    refine Or.inl ⟨?_, h⟩
    cases hv : item.get verb.word <;> simp_all [Json.nonNull, Json.isNull]
  · next operation ho =>
    simp only [runs_bind, runs_notify, runs_pure] at h
    obtain ⟨m, s, hm, -, _, rfl, more, _, hr, rfl, rfl⟩ := h
    refine Or.inr ⟨m, more, s, ?_, Json.eq_of_nonNull ho ▸ hm, hr, rfl⟩
    cases hv : item.get verb.word <;> simp_all [Json.nonNull, Json.isNull]

/-- The operations of a path are those of the node that it stands for. -/
theorem path_runs {p' : Path} {methods : List Method}
    (h : Runs (path document self scope name node) p (p', methods) q) :
    ∃ item s, followChain document p.registry (scope.relocated ["paths", name]).location
        (document.size + 2) node = .ok item ∧
      Runs (operations document self (scope.relocated ["paths", name]) name item Verb.all) p methods
        s ∧
      p'.name = name ∧ p'.kind = .path ∧ p'.methods = methods.map Method.id ∧
      q = { s with notices := s.notices ++ [.entity [.path] (.path p')] } := by
  simp only [path, runs_bind, runs_fit, runs_notify, runs_pure, Prod.mk.injEq] at h
  obtain ⟨item, _, hd, header, _, ⟨_, rfl⟩, ms, s, ho, -, _, rfl, ⟨rfl, rfl⟩, rfl⟩ := h
  obtain ⟨rfl, hi⟩ := dereference_runs hd
  exact ⟨item, s, hi, ho, rfl, rfl, rfl, rfl⟩

/-- The paths of a document that has some. -/
def listed (document : Json) : List (String × Json) :=
  match document.get "paths" with
  | .obj entries => entries
  | _ => []

theorem paths_runs {walked : List (Path × List Method)}
    (h : Runs (paths document self scope) p walked q) :
    Runs ((listed document).mapM fun entry => path document self scope entry.1 entry.2) p walked
      q := by
  unfold paths at h
  unfold listed
  simp only [runs_ite, runs_pure] at h
  split at h
  · next ht =>
    obtain ⟨rfl, rfl⟩ := h
    split
    · next entries he =>
      rw [he] at ht
      obtain rfl : entries = [] := by simpa [Json.truthy] using ht
      exact runs_pure.2 ⟨rfl, rfl⟩
    · exact runs_pure.2 ⟨rfl, rfl⟩
  · split at h
    · next entries he => simpa [he] using h
    · exact (runs_malformed.1 h).elim

/-- The models are left one by one, and nothing else changes. -/
theorem models_runs {u : Unit} (h : Runs models p u q) :
    q = { p with notices :=
      p.notices ++ (Dict.values p.registry.models).map fun m => .entity [m.kind, .model] (.model m) } := by
  have loop : ∀ (ms : List Model) (p : Progress) (u : Unit), Runs
      (forIn ms PUnit.unit fun m _ => do
        notify (.entity [m.kind, .model] (.model m))
        pure (.yield PUnit.unit) : Resolving PUnit) p u q →
      q = { p with
        notices := p.notices ++ ms.map fun m => .entity [m.kind, .model] (.model m) } := by
    intro ms
    induction ms with
    | nil =>
      intro p u h
      rw [List.forIn_nil] at h
      rw [List.map_nil, List.append_nil, (runs_pure.1 h).2]
    | cons m ms ih =>
      intro p u h
      rw [List.forIn_cons] at h
      simp only [runs_bind, runs_notify, runs_pure] at h
      obtain ⟨_, _, ⟨_, _, rfl, rfl, rfl⟩, h⟩ := h
      dsimp only at h
      rw [ih _ _ h]
      simp
  simp only [models, runs_bind, runs_registry] at h
  obtain ⟨_, _, ⟨rfl, rfl⟩, u, _, h, hu⟩ := h
  obtain ⟨-, rfl⟩ := runs_pure.1 hu
  exact loop _ _ _ h

end Walk

theorem walk_runs {document : Json} {p q : Progress} {arena : Arena}
    (h : Runs (walk document) p arena q) :
    ∃ s t walked,
      Runs (Component.collect document (resolveNode document) (Scope.root.phase .named)) p () s ∧
      Runs (Walk.paths document (resolveNode document) (Scope.root.phase .structural)) s walked t ∧
      Runs Walk.models t () q ∧ arena = .ofWalk walked := by
  simp only [walk, runs_bind, runs_pure] at h
  obtain ⟨_, s, hc, walked, t, hp, _, _, hm, rfl, rfl⟩ := h
  exact ⟨s, t, walked, hc, hp, hm, rfl⟩

end ApiGraph
