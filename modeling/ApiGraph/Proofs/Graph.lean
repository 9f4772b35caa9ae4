import ApiGraph.Graph
import ApiGraph.Proofs.Delivery
import ApiGraph.Proofs.Resolve.Visit

/-! What a graph holds after it accepted a document. -/

namespace ApiGraph

open Resolving

variable {τ : Type}

/-- A document that a graph accepted, with the graph that results: given as JSON, or as a value
that has a JSON form. -/
inductive Graph.Accepts : Graph τ → Json → Graph τ → Prop
  | json {g : Graph τ} {document : Json} {source : Option String}
    (accepted : (g.parse document source).outcome = .ok ()) :
    Accepts g document (g.parse document source).graph
  | datum {g : Graph τ} {value : Datum} {document : Json} {source : Option String}
    (form : value.toJson = .ok document) (accepted : (g.parseDatum value source).outcome = .ok ()) :
    Accepts g document (g.parseDatum value source).graph

/-- The entities of some paths and models, in the order in which a walk leaves them. -/
def Walk.entities (walked : List (Path × List Method)) (models : Dict String Model) :
    List (List Kind × Entity) :=
  walked.flatMap Path.notices ++ (Dict.values models).map Model.notice

/-- The change of a graph that accepts a document: given as JSON, or as a value that has a JSON
form. -/
inductive Graph.Accepted (g : Graph τ) (document : Json) : Graph.Change τ → Prop
  | json {source : Option String} (accepted : (g.parse document source).outcome = .ok ()) :
    Accepted g document (g.parse document source)
  | datum {value : Datum} {source : Option String} (form : value.toJson = .ok document)
    (accepted : (g.parseDatum value source).outcome = .ok ()) :
    Accepted g document (g.parseDatum value source)

/-- A document that is accepted is walked through, and what the walk leaves is delivered. -/
theorem Graph.Accepted.eq {g : Graph τ} {document : Json} {c : Graph.Change τ}
    (h : g.Accepted document c) : c = g.resolveAll document ∧ c.outcome = .ok () := by
  cases h with
  | @json source accepted =>
    refine ⟨?_, accepted⟩
    unfold Graph.parse at accepted ⊢
    split at accepted
    · cases accepted
    · rfl
  | @datum value source form accepted =>
    refine ⟨?_, accepted⟩
    unfold Graph.parseDatum at accepted ⊢
    split at accepted
    · cases accepted
    · simp only [form]

theorem Graph.Accepted.accepts {g : Graph τ} {document : Json} {c : Graph.Change τ}
    (h : g.Accepted document c) : Graph.Accepts g document c.graph := by
  cases h with
  | json accepted => exact .json accepted
  | datum form accepted => exact .datum form accepted

theorem Graph.Accepts.accepted {g g' : Graph τ} {document : Json} (h : Graph.Accepts g document g') :
    ∃ c, g.Accepted document c ∧ c.graph = g' := by
  cases h with
  | json accepted => exact ⟨_, .json accepted, rfl⟩
  | datum form accepted => exact ⟨_, .datum form accepted, rfl⟩

/-- A graph that accepts a document holds what the walk through the document found; its snapshot
records what was delivered, and its listeners heard just that. -/
theorem Graph.Accepted.walked {g : Graph τ} {document : Json} {c : Graph.Change τ}
    (h : g.Accepted document c) : ∃ s t q walked,
      Runs (Component.collect document (resolveNode document) (Scope.root.phase .named)) .start ()
        s ∧
      Runs (Walk.paths document (resolveNode document) (Scope.root.phase .structural)) s walked t ∧
      Runs (walk document) .start (.ofWalk walked) q ∧
      q.emitted = Walk.entities walked t.registry.models ∧
      c.graph.registry = t.registry ∧ c.graph.methods = (Arena.ofWalk walked).methods ∧
      c.graph.paths = (Arena.ofWalk walked).paths ∧
      c.graph.snapshot = { Snapshot.empty.recordAll (Walk.entities walked t.registry.models) with
        models := t.registry.models } ∧
      c.heard = g.audience.hears ((Walk.entities walked t.registry.models).flatMap spread) ∧
      ∀ k, c.graph.audience.tags k = g.audience.tags k := by
  obtain ⟨rfl, ho⟩ := h.eq
  unfold Graph.resolveAll at ho ⊢
  generalize hw : (walk document).run.run .start = w at ho ⊢
  obtain ⟨result, q⟩ := w
  dsimp only at ho ⊢
  generalize hd : (Delivering.play q.notices).run.run g.stage = d at ho ⊢
  obtain ⟨played, stage⟩ := d
  cases played with
  | error f => simp at ho
  | ok u =>
    cases result with
    | error f => simp at ho
    | ok arena =>
      obtain ⟨s, t, walked, hc, hp, hm, rfl⟩ := walk_runs hw
      have he : q.emitted = Walk.entities walked t.registry.models := emitted_walk hc hp hm
      have hs : stage.snapshot = Snapshot.empty.recordAll q.emitted := (Delivering.run_play hd).1
      have delivered : Delivered g.stage (q.emitted.flatMap spread) stage := Delivered.play hd
      rw [he] at hs delivered
      have models : q.registry = t.registry := by rw [Walk.models_runs hm]
      refine ⟨s, t, q, walked, hc, hp, hw, he, models, rfl, rfl, ?_, ?_, delivered.tags⟩
      · dsimp only
        rw [hs, models]
      · exact delivered.heard

/-- Accepting a document logs the warnings of the walk through it. -/
theorem Graph.Accepted.warned {g : Graph τ} {document : Json} {c : Graph.Change τ}
    (h : g.Accepted document c) : c.warnings = ((walk document).run.run .start).2.warned := by
  obtain ⟨rfl, ho⟩ := h.eq
  unfold Graph.resolveAll at ho ⊢
  generalize (walk document).run.run .start = w at ho ⊢
  obtain ⟨result, q⟩ := w
  dsimp only at ho ⊢
  generalize hd : (Delivering.play q.notices).run.run g.stage = d at ho ⊢
  obtain ⟨played, stage⟩ := d
  cases played with
  | error f => simp at ho
  | ok u =>
    have logged : stage.warnings = [] ++ q.warned := (Delivering.run_play hd).2
    cases result <;> exact logged

/-- A graph that accepted a document holds what the walk through the document found, and its
snapshot records what was delivered. -/
theorem Graph.Accepts.walked {g g' : Graph τ} {document : Json} (h : Graph.Accepts g document g') :
    ∃ s t walked,
      Runs (Component.collect document (resolveNode document) (Scope.root.phase .named)) .start ()
        s ∧
      Runs (Walk.paths document (resolveNode document) (Scope.root.phase .structural)) s walked t ∧
      g'.registry = t.registry ∧ g'.methods = (Arena.ofWalk walked).methods ∧
      g'.paths = (Arena.ofWalk walked).paths ∧
      g'.snapshot = { Snapshot.empty.recordAll (Walk.entities walked t.registry.models) with
        models := t.registry.models } := by
  obtain ⟨c, accepted, rfl⟩ := h.accepted
  obtain ⟨s, t, q, walked, hc, hp, -, -, hr, hm, hps, hs, -⟩ := accepted.walked
  exact ⟨s, t, walked, hc, hp, hr, hm, hps, hs⟩

theorem eq_ok_of_isOk {ε : Type} {x : Except ε Unit} (h : x.isOk = true) : x = .ok () := by
  cases x with
  | error f => cases h
  | ok u => rfl

theorem Graph.Accepted.of_isOk {g : Graph τ} {document : Json} {source : Option String}
    (h : (g.parse document source).outcome.isOk = true) :
    g.Accepted document (g.parse document source) := .json (eq_ok_of_isOk h)

theorem Graph.Accepts.of_isOk {g : Graph τ} {document : Json} {source : Option String}
    (h : (g.parse document source).outcome.isOk = true) :
    Graph.Accepts g document (g.parse document source).graph := (Graph.Accepted.of_isOk h).accepts

/-- An account of the walk through a document that led to a graph: its paths were visited in the
order in which they are listed, once the components were collected. -/
structure Graph.Account (document : Json) (g' : Graph τ) (visits : List Visit) : Prop where
  entries : visits.map Visit.entry = Walk.listed document
  run : ∃ s t, Runs (Component.collect document (resolveNode document) (Scope.root.phase .named))
      .start () s ∧ Chain (Visit.Made document) visits s t ∧ g'.registry = t.registry
  methods : g'.methods = (Arena.ofWalk (visits.map Visit.walked)).methods
  paths : g'.paths = (Arena.ofWalk (visits.map Visit.walked)).paths
  snapshot : g'.snapshot =
    { Snapshot.empty.recordAll (Walk.entities (visits.map Visit.walked) g'.registry.models) with
      models := g'.registry.models }

theorem Graph.Accepted.account {g : Graph τ} {document : Json} {c : Graph.Change τ}
    (h : g.Accepted document c) : ∃ visits, Graph.Account document c.graph visits ∧
      ((walk document).run.run .start).2.emitted =
        Walk.entities (visits.map Visit.walked) c.graph.registry.models ∧
      c.heard = g.audience.hears
        ((Walk.entities (visits.map Visit.walked) c.graph.registry.models).flatMap spread) := by
  obtain ⟨s, t, q, walked, hc, hp, hw, hq, hr, hm, hps, hs, hh, -⟩ := h.walked
  obtain ⟨visits, chain, he, rfl⟩ := Walk.paths_visits hp
  rw [hr]
  exact ⟨visits, ⟨he, ⟨s, t, hc, chain, hr⟩, hm, hps, hr ▸ hs⟩, by rw [hw]; exact hq, hh⟩

/-- An account of an accepted document tells the warnings too: they are those that its visits left. -/
theorem Graph.Accepted.visited {g : Graph τ} {document : Json} {c : Graph.Change τ}
    (h : g.Accepted document c) : ∃ visits s t, Graph.Account document c.graph visits ∧
      Runs (Component.collect document (resolveNode document) (Scope.root.phase .named)) .start () s ∧
      Chain (Visit.Made document) visits s t ∧ c.graph.registry = t.registry ∧
      c.warnings = t.warned := by
  obtain ⟨s, t, q, walked, hc, hp, hw, -, hr, hm, hps, hs, -⟩ := h.walked
  obtain ⟨visits, chain, he, rfl⟩ := Walk.paths_visits hp
  have warned : q.warned = t.warned := by
    obtain ⟨s', t', walked', hc', hp', models, -⟩ := walk_runs hw
    cases hc.symm.trans hc'
    cases hp.symm.trans hp'
    exact Walk.warned_models models
  refine ⟨visits, s, t, ⟨he, ⟨s, t, hc, chain, hr⟩, hm, hps, hr ▸ hs⟩, hc, chain, hr, ?_⟩
  rw [h.warned, hw]
  exact warned

theorem Graph.Accepts.account {g g' : Graph τ} {document : Json} (h : Graph.Accepts g document g') :
    ∃ visits, Graph.Account document g' visits := by
  obtain ⟨c, accepted, rfl⟩ := h.accepted
  obtain ⟨visits, account, -⟩ := accepted.account
  exact ⟨visits, account⟩

/-- What an accepted document is delivered as: an operation or a path of the walk, or a registered
model. -/
theorem Snapshot.mem_get {walked : List (Path × List Method)} {models : Dict String Model}
    {k : Kind} {e : Entity}
    (h : e ∈ (Snapshot.empty.recordAll (Walk.entities walked models)).get k) :
    (∃ x ∈ walked, ∃ m ∈ x.2, e = .method m) ∨ (∃ x ∈ walked, e = .path x.1) ∨
      ∃ m ∈ Dict.values models, e = .model m := by
  rw [get_recordAll] at h
  have he : Snapshot.empty.get k = [] := rfl
  simp only [he, List.nil_append, List.mem_flatMap, List.mem_replicate, Walk.entities,
    List.mem_append, Path.notices, List.mem_map, List.mem_singleton] at h
  obtain ⟨y, ⟨x, hx, ⟨m, hm, rfl⟩ | rfl⟩ | ⟨m, hm, rfl⟩, -, rfl⟩ := h
  · exact Or.inl ⟨x, hx, m, hm, rfl⟩
  · exact Or.inr (Or.inl ⟨x, hx, rfl⟩)
  · exact Or.inr (Or.inr ⟨m, hm, rfl⟩)

end ApiGraph
