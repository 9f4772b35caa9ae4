import ApiGraph.Proofs.Resolve.Notices

/-! The account of a walk through the paths of a document: the node that stood at each place when
the walk came there, and what was made of it. What a node stands for depends on the registry of
that moment, so the account follows the states of the run. -/

namespace ApiGraph

open Resolving

namespace Resolving

/-- Steps of a run, each from the state in which the one before it left the run. -/
inductive Chain (step : α → Progress → Progress → Prop) : List α → Progress → Progress → Prop
  | nil {p : Progress} : Chain step [] p p
  | cons {a : α} {as : List α} {p s q : Progress} (first : step a p s) (rest : Chain step as s q) :
    Chain step (a :: as) p q

theorem Chain.mem {step : α → Progress → Progress → Prop} {as : List α} {a : α} {p q : Progress}
    (h : Chain step as p q) (ha : a ∈ as) : ∃ s t, step a s t := by
  induction h with
  | nil => cases ha
  | cons first _ ih =>
    rcases List.mem_cons.1 ha with rfl | ha
    · exact ⟨_, _, first⟩
    · exact ih ha

end Resolving

/-- A node of an operation stands for another one, or for itself. -/
def Stands (document : Json) (r : Registry) (node v : Json) : Prop :=
  ∃ location, followChain document r location (document.size + 2) node = .ok v

/-- A status of an operation, the node that stood for it, and its responses. -/
structure Status where
  entry : String × Json
  node : Json
  responses : List Response

/-- An operation, its statuses, and the node that stood for its request body. -/
structure Stop where
  method : Method
  statuses : List Status
  body : Option Json

/-- A path, the node that stood for it, and its operations. -/
structure Visit where
  entry : String × Json
  item : Json
  path : Path
  stops : List Stop

/-- The operations of a path. -/
def Visit.methods (v : Visit) : List Method := v.stops.map Stop.method

/-- A path with its operations, as a walk returns them. -/
def Visit.walked (v : Visit) : Path × List Method := (v.path, v.methods)

/-- The media types of a node. -/
def contentOf (node : Json) : List (String × Json) :=
  match node.get "content" with
  | .obj entries => entries
  | _ => []

/-- A status was resolved into its responses. -/
def Status.Made (document : Json) (a : Status) (p q : Progress) : Prop :=
  Stands document p.registry a.entry.2 a.node ∧ ∃ scope o, ∃ verb : Verb, o.verb = verb.word ∧
    ∃ headers s, Runs (Header.resolveAll document (resolveNode document) scope
        (a.node.get "headers")) p headers s ∧
      ((a.node.get "content" = .obj (contentOf a.node) ∧
          Runs (Response.resolveMedia (resolveNode document) scope o a.entry.1 headers a.node
            (contentOf a.node)) s a.responses q) ∨
        (contentOf a.node = [] ∧ s = q ∧ ∃ response, a.responses = [response] ∧
          response.payload = none))

/-- The parameters of an operation were resolved and gathered. -/
def Method.Prepared (document : Json) (m : Method) (p q : Progress) : Prop :=
  ∃ scope params p₁ p₂ p₃ p₄, p₁.registry = p.registry ∧
    Runs (Parameter.resolveAll (resolveNode document) scope params) p₁
      ⟨m.pathParams, m.queryParams, m.headerParams⟩ p₂ ∧
    Runs (Parameter.gather scope m.pathParams (m.name ++ "Path")) p₂ m.pathObject p₃ ∧
    Runs (Parameter.gather scope m.queryParams (m.name ++ "Query")) p₃ m.queryObject p₄ ∧
    Runs (Parameter.gather scope m.headerParams (m.name ++ "Headers")) p₄ m.headerObject q

/-- A request body was resolved, if there is one. All its media types carry the same. -/
def Stop.Offered (document : Json) (node : Json) (stop : Stop) (p q : Progress) : Prop :=
  match stop.body with
  | none => node.isNull = true ∧ q = p ∧ stop.method.requestBodies = []
  | some v => node.isNull = false ∧ Stands document p.registry node v ∧
    RequestBody.distinctShapes (contentOf v) ≤ 1 ∧ ∃ scope o, ∃ verb : Verb, o.verb = verb.word ∧
      Runs (RequestBody.resolveMedia (resolveNode document) scope o v none (contentOf v)) p
        stop.method.requestBodies q

/-- An operation of a path was resolved: first its parameters, then its statuses, then its request
body. -/
def Stop.Made (document : Json) (name : String) (item : Json) (stop : Stop) (p q : Progress) :
    Prop :=
  (∃ scope s, Runs (Method.resolve document (resolveNode document) scope stop.method.verb name item
      (item.get stop.method.verb.word)) p stop.method s ∧
    q = { s with notices := s.notices ++ [.entity [.method] (.method stop.method)] }) ∧
  Method.orElse ((item.get stop.method.verb.word).get "responses") (.obj []) =
    .obj (stop.statuses.map Status.entry) ∧
  stop.method.responses = stop.statuses.flatMap Status.responses ∧
  ∃ p₁ p₂ p₃, stop.method.Prepared document p p₁ ∧
    Chain (Status.Made document) stop.statuses p₁ p₂ ∧
    stop.Offered document ((item.get stop.method.verb.word).get "requestBody") p₂ p₃ ∧
    q.registry = p₃.registry

/-- Whether a path item has an operation under a verb. -/
def hasOperation (item : Json) (verb : Verb) : Bool := !(item.get verb.word).isNull

/-- A path was resolved with the operations that it has, verb by verb. -/
def Visit.Made (document : Json) (v : Visit) (p q : Progress) : Prop :=
  Stands document p.registry v.entry.2 v.item ∧
  v.path.name = v.entry.1 ∧ v.path.kind = .path ∧ v.path.methods = v.methods.map Method.id ∧
  v.methods.map Method.verb = Verb.all.filter (hasOperation v.item) ∧
  (∀ m ∈ v.methods, m.path = v.entry.1) ∧
  ∃ s, Chain (Stop.Made document v.entry.1 v.item) v.stops p s ∧
    q = { s with notices := s.notices ++ [.entity [.path] (.path v.path)] }

variable {document node item : Json} {scope : Scope} {p q : Progress} {name : String}

theorem contentOf_of_not_truthy (h : (node.get "content").truthy = false) : contentOf node = [] := by
  unfold contentOf
  split
  · next content hc =>
    rw [hc] at h
    simpa [Json.truthy] using h
  · rfl

/-- The statuses of an operation are resolved one after the other, whatever is told of each. -/
theorem Response.chain_of_each {told : Status → Progress → Progress → Prop} {self : Resolver}
    {o : Occasion} {entries : List (String × Json)} {responses : List Response}
    (each : ∀ {entry here p s}, Runs (resolveStatus document self
      (scope.down ["responses", entry.1]) o entry.1 entry.2) p here s → ∃ v, told ⟨entry, v, here⟩ p s)
    (h : Runs (resolveEach document self scope o entries) p responses q) :
    ∃ statuses, Chain told statuses p q ∧ statuses.map Status.entry = entries ∧
      responses = statuses.flatMap Status.responses := by
  induction entries generalizing p responses with
  | nil =>
    obtain ⟨rfl, rfl⟩ := runs_pure.1 h
    exact ⟨[], .nil, rfl, rfl⟩
  | cons entry rest ih =>
    obtain ⟨here, more, s, hh, hm, rfl⟩ := resolveEach_runs h
    obtain ⟨statuses, chain, rfl, rfl⟩ := ih hm
    obtain ⟨v, first⟩ := each hh
    exact ⟨⟨entry, v, here⟩ :: statuses, .cons first chain, rfl, rfl⟩

/-- The statuses of an operation with the nodes that they stand for. -/
theorem Response.statuses {o : Occasion} {verb : Verb} (hv : o.verb = verb.word)
    {entries : List (String × Json)} {responses : List Response}
    (h : Runs (resolveEach document (resolveNode document) scope o entries) p responses q) :
    ∃ statuses, Chain (Status.Made document) statuses p q ∧ statuses.map Status.entry = entries ∧
      responses = statuses.flatMap Status.responses := by
  refine chain_of_each (fun hh => ?_) h
  obtain ⟨v, headers, t, hs, hd, hc⟩ := resolveStatus_runs hh
  refine ⟨v, ⟨_, hs⟩, _, o, verb, hv, headers, t, hd, ?_⟩
  obtain ⟨content, hc, -, hm⟩ | ⟨ht, rfl, response, rfl, -, -, hp, -⟩ := hc
  · have hcontent : contentOf v = content := by rw [contentOf, hc]
    exact Or.inl ⟨by rw [hcontent, hc], by rw [hcontent]; exact hm⟩
  · exact Or.inr ⟨contentOf_of_not_truthy ht, rfl, response, rfl, hp⟩

/-- An operation is resolved part by part. -/
theorem Method.stop {verb : Verb} {m : Method}
    (h : Runs (resolve document (resolveNode document) scope verb name item
      (item.get verb.word)) p m q) :
    ∃ stop : Stop, stop.method = m ∧ m.verb = verb ∧ m.path = name ∧
      stop.Made document name item p
        { q with notices := q.notices ++ [.entity [.method] (.method m)] } := by
  obtain ⟨wanted, params, o, p₁, p₂, p₃, p₄, p₅, p₆, -, -, hv, -, hr, -, -, -, hg, h₁, h₂, h₃, h₄, h₅,
    rfl, hpath⟩ := Method.resolve_runs h
  obtain ⟨entries, he, h₄⟩ := Response.resolveAll_runs h₄
  obtain ⟨statuses, chain, rfl, hresponses⟩ := Response.statuses hv h₄
  have prepared : m.Prepared document p p₅ :=
    ⟨scope, params, p₁, p₂, p₃, p₄, hr, hg, h₁, h₂, h₃⟩
  have made (body : Option Json)
      (ho : Stop.Offered document ((item.get m.verb.word).get "requestBody") ⟨m, statuses, body⟩ p₆
        q) :
      ∃ stop : Stop, stop.method = m ∧ m.verb = m.verb ∧ m.path = name ∧
        stop.Made document name item p
          { q with notices := q.notices ++ [.entity [.method] (.method m)] } :=
    ⟨⟨m, statuses, body⟩, rfl, rfl, hpath, ⟨scope, q, h, rfl⟩, he, hresponses, p₅, p₆, q, prepared,
      chain, ho, rfl⟩
  obtain ⟨hn, rfl, hb⟩ | ⟨hn, hb⟩ := h₅
  · exact made none ⟨hn, rfl, hb⟩
  · obtain ⟨v, hs, hc⟩ := RequestBody.resolveAll_runs hb
    refine made (some v) ⟨hn, ⟨_, hs⟩, ?_⟩
    obtain ⟨ht, rfl, hbodies⟩ | ⟨content, hc, hd, hm⟩ := hc
    · rw [contentOf_of_not_truthy ht]
      exact ⟨Nat.zero_le _, scope, o, m.verb, hv, runs_pure.2 ⟨hbodies, rfl⟩⟩
    · rw [show contentOf v = content by rw [contentOf, hc]]
      exact ⟨hd, _, o, m.verb, hv, hm⟩

namespace Walk

theorem operations_stops {verbs : List Verb} {methods : List Method}
    (h : Runs (operations document (resolveNode document) scope name item verbs) p methods q) :
    ∃ stops, Chain (Stop.Made document name item) stops p q ∧ stops.map Stop.method = methods ∧
      methods.map Method.verb = verbs.filter (hasOperation item) ∧ ∀ m ∈ methods, m.path = name := by
  induction verbs generalizing p methods with
  | nil =>
    obtain ⟨rfl, rfl⟩ := runs_pure.1 h
    exact ⟨[], .nil, rfl, rfl, by simp⟩
  | cons verb rest ih =>
    obtain ⟨hn, hr⟩ | ⟨m, more, s, hn, hm, hr, rfl⟩ := operations_runs h
    · obtain ⟨stops, chain, hms, hvs, hps⟩ := ih hr
      exact ⟨stops, chain, hms, by simp [hasOperation, hn, hvs], hps⟩
    · obtain ⟨stops, chain, rfl, hvs, hps⟩ := ih hr
      obtain ⟨stop, rfl, rfl, hp, made⟩ := Method.stop hm
      refine ⟨stop :: stops, .cons made chain, rfl, ?_, ?_⟩
      · rw [List.map_cons, hvs, List.filter_cons, hasOperation, hn]
        rfl
      · simpa using ⟨hp, by simpa using hps⟩

/-- Every path is visited, in the order of the document. -/
theorem paths_visits {walked : List (Path × List Method)}
    (h : Runs (paths document (resolveNode document) scope) p walked q) :
    ∃ visits, Chain (Visit.Made document) visits p q ∧
      visits.map Visit.entry = listed document ∧ visits.map Visit.walked = walked := by
  replace h := paths_runs h
  generalize listed document = entries at h
  induction entries generalizing p walked with
  | nil =>
    obtain ⟨rfl, rfl⟩ := runs_pure.1 h
    exact ⟨[], .nil, rfl, rfl⟩
  | cons entry rest ih =>
    rw [List.mapM_cons] at h
    simp only [runs_bind, runs_pure] at h
    obtain ⟨⟨p', methods⟩, s, hp, more, _, hm, rfl, rfl⟩ := h
    obtain ⟨visits, chain, rfl, rfl⟩ := ih hm
    obtain ⟨item, t, hs, ho, hn, hk, hids, rfl⟩ := path_runs hp
    obtain ⟨stops, stopped, rfl, hvs, hps⟩ := operations_stops ho
    exact ⟨⟨entry, item, p', stops⟩ :: visits,
      .cons ⟨⟨_, hs⟩, hn, hk, hids, hvs, hps, t, stopped, rfl⟩ chain, rfl, rfl⟩

end Walk

end ApiGraph
