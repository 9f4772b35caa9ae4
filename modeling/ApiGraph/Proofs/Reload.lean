import ApiGraph.Proofs.Registry.Lookup
import ApiGraph.Proofs.Snapshot
import ApiGraph.Proofs.Stream

/-! A graph that adopts the written snapshot of an accepted document is the graph that accepted the
document, but for the doubles that were lost in writing. -/

namespace ApiGraph

open Json Resolving Shape

variable {τ σ : Type} {document : Json} {g g' : Graph τ} {c : Graph.Change τ} {visits : List Visit}
  {s : Snapshot} {P : Model → Prop} {k : Kind} {m : Model}

/-- Entities that are written alike, one by one. -/
def WrittenAlike (es fs : List Entity) : Prop :=
  List.Forall₂ (fun e f => Alike e.toJson f.toJson) es fs

/-- Neither the format nor the enumeration of a model or of one of its members is a double without
a JSON form. -/
structure Model.Formatted (m : Model) : Prop where
  subtype : m.subtype.isUnbounded = false
  enum : m.enum.isUnbounded = false
  fields : ∀ f ∈ m.fields, f.Bounded

theorem Model.Made.not_isRef (h : m.Made) : m.kind.isRef = false := by
  have made := h.kind
  generalize m.kind = kind at made ⊢
  cases kind <;> first | rfl | cases made

theorem Model.Made.bounded (h : m.Made) (formatted : m.Formatted) : m.Bounded := by
  refine ⟨?_, formatted.subtype, formatted.enum, formatted.fields⟩
  have source := h.source
  generalize m.source = v at source ⊢
  cases v <;> first | rfl | simp [isNull, isObject] at source

theorem Model.throughout_bounded (made : m.Made) (proper : AllProper m.inner)
    (here : m.Formatted) (inside : ∀ k : Model, (Link.model k).Within m.inner → k.Formatted) :
    m.Throughout Model.Bounded := by
  induction m using Model.induction with
  | embeds m ih =>
    refine .intro (made.bounded here) (fun r hr => proper _ (.here hr))
      (fun k hk => Model.Made.not_isRef (proper _ (.here hk))) fun k hk => ?_
    exact ih k hk (proper _ (.here hk)) (fun l hl => proper l (.inside hk hl)) (inside k (.here hk))
      fun j hj => inside j (.inside hk hj)

namespace Snapshot

theorem nodup_categories (xs : List (List Kind × Entity)) (h : (Dict.keys s.events).Nodup) :
    (Dict.keys (s.recordAll xs).events).Nodup := by
  have one (x : List Kind × Entity) {s : Snapshot} (h : (Dict.keys s.events).Nodup) :
      (Dict.keys (s.recordUnder x).events).Nodup := by
    obtain ⟨categories, e⟩ := x
    unfold recordUnder
    dsimp only
    induction categories generalizing s with
    | nil => exact h
    | cons category rest ih => exact ih (Dict.nodup_keys_put _ _ h)
  unfold recordAll
  induction xs generalizing s with
  | nil => exact h
  | cons x xs ih => exact ih (one x h)

theorem get_of_mem (h : (Dict.keys s.events).Nodup) {x : Kind × List Entity} (hx : x ∈ s.events) :
    s.get x.1 = x.2 := by
  rw [get, Dict.lookup_of_mem h hx]
  rfl

/-- The deliveries of a snapshot are its categories. -/
theorem under_deliveries (h : (Dict.keys s.events).Nodup) (k : Kind) :
    under k s.deliveries = s.get k := by
  obtain ⟨events, models⟩ := s
  have same (es : List Entity) : under k (es.map fun e => (k, e)) = es := by
    simp [under, List.filter_map, Function.comp_def]
  have other {j : Kind} (hj : j ≠ k) (es : List Entity) : under k (es.map fun e => (j, e)) = [] := by
    simp [under, hj]
  rw [deliveries, under_flatMap, get]
  dsimp only at h ⊢
  induction events with
  | nil => rfl
  | cons x events ih =>
    obtain ⟨j, es⟩ := x
    obtain ⟨new, rest⟩ := List.nodup_cons.1 h
    rw [List.flatMap_cons, ih rest, List.lookup_cons]
    dsimp only
    by_cases hj : j = k
    · subst hj
      have none : List.lookup j events = none := List.lookup_eq_none_iff.2 fun p hp => by
        simpa using fun he : j = p.1 => new (List.mem_map.2 ⟨p, hp, he.symm⟩)
      rw [same, none, beq_self_eq_true]
      exact List.append_nil es
    · rw [other hj, beq_false_of_ne (Ne.symm hj)]
      rfl

theorem get_finite (s : Snapshot) (k : Kind) : s.finite.get k = (s.get k).map Entity.finite := by
  rw [get, finite, Dict.lookup_map, get]
  cases List.lookup k s.events <;> rfl

end Snapshot

namespace Graph.Account

theorem mem_stream_fit (made : ∀ x ∈ g'.registry.models, x.2.kind.isMade = true)
    (all : ∀ x ∈ g'.registry.models, x.2.Throughout P) {e : Entity}
    (h : (k, e) ∈ stream visits g'.registry.models) : e.Fit P k := by
  rcases List.mem_append.1 h with h | h
  · obtain ⟨v, -, hv⟩ := List.mem_flatMap.1 h
    rcases List.mem_append.1 hv with hm | hp
    · obtain ⟨m, -, he⟩ := List.mem_map.1 hm
      cases he
      exact rfl
    · cases List.mem_singleton.1 hp
      exact rfl
  · obtain ⟨m, hm, he⟩ := List.mem_flatMap.1 h
    obtain ⟨x, hx, rfl⟩ := List.mem_map.1 hm
    have kind := made x hx
    have here : e = .model x.2 ∧ (k = x.2.kind ∨ k = .model) := by
      simp only [Model.stream, List.mem_cons, Prod.mk.injEq, List.not_mem_nil, or_false] at he
      tauto
    obtain ⟨rfl, hk⟩ := here
    refine ⟨?_, ?_, all x hx⟩
    all_goals
      rintro rfl
      rcases hk with hk | hk
      · rw [← hk] at kind
        cases kind
      · cases hk

theorem mem_get_fit (account : Graph.Account document g' visits) (proper : g'.registry.Proper)
    (all : ∀ x ∈ g'.registry.models, x.2.Throughout P) {e : Entity} (h : e ∈ g'.snapshot.get k) :
    e.Fit P k := by
  rw [account.get_eq_under] at h
  obtain ⟨y, hy, rfl⟩ := List.mem_map.1 h
  obtain ⟨hy, hk⟩ := List.mem_filter.1 hy
  rw [← eq_of_beq hk]
  exact mem_stream_fit (fun x hx => (proper.2 x hx).1.kind) all hy

theorem nodup_categories (account : Graph.Account document g' visits) :
    (Dict.keys g'.snapshot.events).Nodup := by
  rw [account.snapshot]
  exact Snapshot.nodup_categories _ List.nodup_nil

/-- The snapshot of an accepted document has every entity under a category of its class. -/
theorem fit (account : Graph.Account document g' visits) (proper : g'.registry.Proper)
    (all : ∀ x ∈ g'.registry.models, x.2.Throughout P) : g'.snapshot.Fit P := by
  refine ⟨account.nodup_categories, fun x hx e he => ?_, ?_⟩
  · rw [← Snapshot.get_of_mem account.nodup_categories hx] at he
    exact account.mem_get_fit proper all he
  · rw [account.snapshot]
    exact all

/-- What is read of the snapshot of an accepted document is what remains of it. -/
theorem reread (account : Graph.Account document g' visits) (proper : g'.registry.Proper)
    (h : Snapshot.ofJson g'.snapshot.toJson = .ok s) : s = g'.snapshot.finite := by
  have fits := (Snapshot.fits_of_ofJson h).2
  have models : g'.snapshot.models = g'.registry.models := by rw [account.snapshot]
  have typed : g'.snapshot.Fit fun m => m.finite.Typed := account.fit proper fun x hx => by
    have links := (proper.2 x hx).2
    exact Model.typed_of_read (fun r hr => links _ hr)
      (fun k hk => Model.Made.not_isRef (links _ hk)) (fits x (models ▸ hx))
  exact Except.ok.inj (h.symm.trans (Snapshot.ofJson_toJson typed))

/-- Operations come back as they were, under the same identifiers. -/
theorem methods_finite (account : Graph.Account document g' visits) (proper : g'.registry.Proper) :
    g'.snapshot.finite.methods = g'.methods := by
  have made : ∀ x ∈ g'.registry.models, x.2.kind.isMade = true := fun x hx => (proper.2 x hx).1.kind
  rw [Snapshot.methods, Snapshot.get_finite, account.get_eq_under, under_method_stream made,
    account.methods, Arena.ofWalk, List.map_map, List.filterMap_map, List.flatMap_map]
  dsimp only [Visit.walked]
  rw [← List.map_flatMap]
  exact congrArg _ (congrFun List.filterMap_eq_map' _)

theorem paths_finite (account : Graph.Account document g' visits) (proper : g'.registry.Proper) :
    g'.snapshot.finite.paths = g'.paths := by
  have made : ∀ x ∈ g'.registry.models, x.2.kind.isMade = true := fun x hx => (proper.2 x hx).1.kind
  rw [Snapshot.paths, Snapshot.get_finite, account.get_eq_under, under_path_stream made,
    account.paths, Arena.ofWalk]
  simp only [List.map_map, List.filterMap_map, Function.comp_def, Entity.finite,
    List.filterMap_eq_map', Visit.walked]

end Graph.Account

/-- A snapshot that is loaded with success is adopted and delivered. -/
theorem Graph.loaded {d : Json} (h : (g.loadJson d true).outcome = .ok ()) :
    ∃ s, Snapshot.ofJson d = .ok s ∧ (g.loadJson d true).graph.registry = .restore s.models ∧
      (g.loadJson d true).graph.methods = s.methods ∧ (g.loadJson d true).graph.paths = s.paths ∧
      (g.loadJson d true).graph.snapshot = s ∧
      (g.loadJson d true).heard = g.audience.hears s.deliveries := by
  unfold loadJson at h ⊢
  cases hs : Snapshot.ofJson d with
  | error flaw =>
    rw [hs] at h
    cases h
  | ok s =>
    rw [hs] at h
    refine ⟨s, rfl, ?_⟩
    simp only [load, if_true] at h ⊢
    generalize hd : (Delivering.replay s).run.run (g.adopt s).stage = x at h ⊢
    obtain ⟨played, stage⟩ := x
    dsimp only at h ⊢
    subst h
    exact ⟨rfl, rfl, rfl, rfl, (Delivered.replay hd).heard⟩

/-- A description of a model whose format is a double without a JSON form. -/
def boundlessFormat : Json :=
  .obj [("openapi", .str "3.0.0"), ("components", .obj [("schemas", .obj [("Pet", .obj [
    ("type", .str "object"), ("format", .float (.infinite false))])])])]

end ApiGraph
