import ApiGraph.Proofs.Components
import ApiGraph.Proofs.Reception
import ApiGraph.Proofs.Resolve.Following
import ApiGraph.Proofs.Stream

/-! A document with one more path at the end. If no reference that is followed without it leads
elsewhere with it, the walk comes to the new path in the state in which it ended without it, so that
everything keeps its name and its place. -/

namespace ApiGraph

open Resolving

/-- A document with one more path at the end. -/
def appended (entries : List (String × Json)) (path : String × Json) : Json :=
  .obj (Dict.put entries "paths" (.obj (Walk.listed (.obj entries) ++ [path])))

/-- A reference is followed while a document is parsed: it leads to a target and becomes a declared
key without being the reference of a component, or it is a link of a chain from a node that is
dereferenced. -/
inductive Followed (document : Json) (text : String) : Prop
  | reference {arena : Arena} {q : Progress} (run : Runs (walk document) .start arena q)
    (known : text ∈ Dict.keys q.registry.named) (undeclared : Component.Undeclared document text)
    {target : Json} (leads : Pointer.resolve document text = some target)
  | link {s : Progress} {r : Registry} {node : Json}
    (collected : Runs (Component.collect document (resolveNode document)
      (Scope.root.phase .named)) .start () s)
    (asked : Walk.Asked document (resolveNode document) (Scope.root.phase .structural)
      (Walk.listed document) s r node)
    (chased : text ∈ chased document r (document.size + 2) node)

variable {p q : Progress} {scope : Scope}

section

variable {entries : List (String × Json)} {path : String × Json}

theorem get?_appended {key : String} (h : key ≠ "paths") :
    (appended entries path).get? key = (Json.obj entries).get? key :=
  Dict.lookup_put_of_ne _ _ (by simpa using h)

theorem listed_appended :
    Walk.listed (appended entries path) = Walk.listed (.obj entries) ++ [path] := by
  have paths : (appended entries path).get "paths" =
      .obj (Walk.listed (.obj entries) ++ [path]) := by
    simp [Json.get, appended, Json.get?]
  rw [Walk.listed, paths]

omit path in
theorem sizeEntries_put {key : String} {v : Json}
    (h : ∀ w, entries.lookup key = some w → w.size ≤ v.size) :
    Json.sizeEntries entries ≤ Json.sizeEntries (Dict.put entries key v) := by
  induction entries with
  | nil => exact Nat.zero_le _
  | cons entry rest ih =>
    obtain ⟨k, w⟩ := entry
    rw [Dict.put]
    split
    · next hk =>
      have less := h w (by simp [List.lookup_cons, hk])
      simp only [Json.sizeEntries]
      omega
    · next hk =>
      have less := ih fun u hu => h u (by simpa [List.lookup_cons, hk] using hu)
      simp only [Json.sizeEntries]
      omega

/-- If there are paths, the document only gets larger. -/
theorem size_appended {self : Resolver} {walked : List (Path × List Method)}
    (h : Runs (Walk.paths (.obj entries) self scope) p walked q) :
    (Json.obj entries).size ≤ (appended entries path).size := by
  have shape : (Json.obj entries).get "paths" = .obj (Walk.listed (.obj entries)) ∨
      ((Json.obj entries).get "paths").truthy = false := by
    unfold Walk.paths at h
    unfold Walk.listed
    dsimp only at h
    split at h
    · next ht => exact .inr (by simpa using ht)
    · split at h
      · next he => exact .inl (by rw [he])
      · exact (runs_malformed.1 h).elim
  have append (xs ys : List (String × Json)) :
      Json.sizeEntries (xs ++ ys) = Json.sizeEntries xs + Json.sizeEntries ys := by
    induction xs with
    | nil => simp [Json.sizeEntries]
    | cons x xs ih => simp [Json.sizeEntries, ih, Nat.add_assoc]
  refine Nat.succ_le_succ (sizeEntries_put fun w hw => ?_)
  have there : (Json.obj entries).get "paths" = w := by simp [Json.get, Json.get?, hw]
  rw [there] at shape
  rcases shape with rfl | falsy
  · simp only [Json.size, append]
    omega
  · have one : w.size = 1 := by
      cases w with
      | arr items =>
        obtain rfl : items = [] := by simpa [Json.truthy] using falsy
        rfl
      | obj entries =>
        obtain rfl : entries = [] := by simpa [Json.truthy] using falsy
        rfl
      | _ => rfl
    rw [one]
    exact Json.size_pos _

/-- A reference to a component leads to the same target. -/
theorem resolve_component (sec name : String) :
    Pointer.resolve (appended entries path) (Pointer.component sec name) =
      Pointer.resolve (.obj entries) (Pointer.component sec name) := by
  rw [Pointer.resolve, Pointer.resolve, Pointer.segments_component, List.foldlM_cons,
    List.foldlM_cons]
  congr 2
  exact get?_appended (by decide)

theorem declared_appended :
    Component.declared (appended entries path) = Component.declared (.obj entries) := by
  unfold Component.declared Json.get
  rw [get?_appended (by decide)]

end

theorem under_eq_nil {k : Kind} {xs : List (Kind × Entity)} (h : ∀ x ∈ xs, x.1 ≠ k) :
    under k xs = [] := by
  rw [under, List.filter_eq_nil_iff.2 fun x hx => by simpa using h x hx]
  rfl

/-- What is delivered of the paths of a walk are operations and paths, and what is delivered of its
models is neither. -/
theorem under_entities_append {k : Kind} {walked more : List (Path × List Method)}
    {models rest : Dict String Model} (made : ∀ x ∈ models ++ rest, x.2.kind.isMade = true) :
    under k ((Walk.entities walked models).flatMap spread) <+:
      under k ((Walk.entities (walked ++ more) (models ++ rest)).flatMap spread) := by
  have split (walked : List (Path × List Method)) (models : Dict String Model) :
      under k ((Walk.entities walked models).flatMap spread) =
        under k ((walked.flatMap Path.notices).flatMap spread) ++
          under k (((Dict.values models).map Model.notice).flatMap spread) := by
    rw [Walk.entities, List.flatMap_append, under_append]
  rw [split, split]
  by_cases hk : k = .method ∨ k = .path
  · have silent (models : Dict String Model) (made : ∀ x ∈ models, x.2.kind.isMade = true) :
        under k (((Dict.values models).map Model.notice).flatMap spread) = [] := by
      refine under_eq_nil fun x hx => ?_
      simp only [Dict.values, List.map_map, List.flatMap_map, List.mem_flatMap] at hx
      obtain ⟨entry, he, hx⟩ := hx
      have kind := made entry he
      obtain rfl | rfl : x = (entry.2.kind, .model entry.2) ∨ x = (.model, .model entry.2) := by
        simpa [spread, Model.notice] using hx
      · intro he
        rw [show entry.2.kind = k from he] at kind
        rcases hk with rfl | rfl <;> cases kind
      · rintro rfl
        rcases hk with hk | hk <;> cases hk
    rw [silent _ fun x hx => made x (List.mem_append_left _ hx), silent _ made, List.append_nil,
      List.append_nil, List.flatMap_append, List.flatMap_append, under_append]
    exact List.prefix_append _ _
  · have silent (walked : List (Path × List Method)) :
        under k ((walked.flatMap Path.notices).flatMap spread) = [] := by
      refine under_eq_nil fun x hx => ?_
      simp only [Path.notices, spread, List.mem_flatMap, List.mem_append, List.mem_map,
        List.mem_singleton] at hx
      obtain ⟨_, ⟨_, -, ⟨m, -, rfl⟩ | rfl⟩, category, hc, rfl⟩ := hx
      · exact fun he => hk (.inl (he ▸ List.mem_singleton.1 hc))
      · exact fun he => hk (.inr (he ▸ List.mem_singleton.1 hc))
    have values : Dict.values (models ++ rest) = Dict.values models ++ Dict.values rest :=
      List.map_append
    rw [silent, silent, List.nil_append, List.nil_append, values, List.map_append,
      List.flatMap_append, under_append]
    exact List.prefix_append _ _

/-- If a document and the document with one more path at the end are accepted, and all references
that are followed in the first lead to the same targets in the second, then the second has all
models of the first under their names and in their order, followed by others, and so it is in each
category of the snapshot. -/
theorem appending_path_keeps_output {τ σ : Type} {g g₁ : Graph τ} {g' g₂ : Graph σ}
    {entries : List (String × Json)} {path : String × Json}
    (h : Graph.Accepts g (.obj entries) g₁) (h' : Graph.Accepts g' (appended entries path) g₂)
    (same : ∀ text, Followed (.obj entries) text →
      Pointer.resolve (appended entries path) text = Pointer.resolve (.obj entries) text) :
    g₁.registry.models <+: g₂.registry.models ∧ g₁.snapshot.models <+: g₂.snapshot.models ∧
      ∀ k, g₁.snapshot.get k <+: g₂.snapshot.get k := by
  obtain ⟨c, accepted, rfl⟩ := h.accepted
  obtain ⟨s, t, q, walked, hc, hp, hw, -, hr, -, -, hs, -⟩ := accepted.walked
  obtain ⟨s', t', walked', hc', hp', hr', -, -, hs'⟩ := h'.walked
  -- The walk without the path, on the larger document.
  have agrees : t.Agrees (.obj entries) (appended entries path) := by
    obtain ⟨s₁, t₁, _, hc₁, hp₁, hm, -⟩ := walk_runs hw
    obtain ⟨-, rfl⟩ := hc.eq hc₁
    obtain ⟨-, rfl⟩ := hp.eq hp₁
    intro text known target leads
    rw [← leads]
    by_cases undeclared : Component.Undeclared (.obj entries) text
    · exact same text (.reference hw (by rwa [Walk.models_runs hm]) undeclared leads)
    · simp only [Component.Undeclared, ne_eq, not_forall, not_not] at undeclared
      obtain ⟨e, -, rfl⟩ := undeclared
      exact resolve_component _ _
  have larger : (Json.obj entries).size ≤ (appended entries path).size := size_appended hp
  obtain ⟨kept, carried⟩ := Walk.carries_paths larger carries_resolveNode
    (by unfold Json.get; rw [get?_appended (by decide)])
    (fun r v asked text chased => same text (.link hc asked chased)) walked t (Walk.paths_runs hp)
  obtain ⟨-, rfl⟩ := hc'.eq ((Component.carries_collect carries_resolveNode declared_appended .start
    () s hc).2 (agrees.mono kept))
  replace hp' := Walk.paths_runs hp'
  simp only [listed_appended, List.mapM_append, runs_bind, runs_pure] at hp'
  obtain ⟨_, _, hp₁, more, _, hp₂, rfl, rfl⟩ := hp'
  obtain ⟨rfl, rfl⟩ := hp₁.eq (carried agrees)
  -- The path itself only adds models.
  simp only [List.mapM_cons, List.mapM_nil, runs_bind, runs_pure] at hp₂
  obtain ⟨⟨p', methods⟩, u, hu, _, _, ⟨rfl, rfl⟩, rfl, rfl⟩ := hp₂
  have sound := (Component.collect_collected rfl hc).ready.sound
  replace sound := (Traversal.resolvePaths (T := extension _ (Component.Undeclared _)) hp sound).1
  obtain ⟨item, v, -, ho, -, -, -, rfl⟩ := Walk.path_runs hu
  obtain ⟨rest, models⟩ :=
    (Traversal.resolveOperations (T := extension _ (Component.Undeclared _)) ho sound).2.models
  have made := h'.proper
  rw [hr'] at made
  rw [hr, hr', hs, hs']
  refine ⟨⟨rest, models⟩, ⟨rest, models⟩, fun k => ?_⟩
  change (Snapshot.empty.recordAll _).get k <+: (Snapshot.empty.recordAll _).get k
  rw [Snapshot.get_recordAll_eq_under, Snapshot.get_recordAll_eq_under]
  change _ <+: under k ((Walk.entities _ v.registry.models).flatMap spread)
  rw [← models]
  exact under_entities_append fun x hx => (made.2 x (models ▸ hx)).1.kind

/-- A schema that is used through a pointer into a component. -/
def pets : List (String × Json) :=
  [("openapi", .str "3.0.0"),
    ("components", .obj [("schemas", .obj [("Pet", .obj [("properties", .obj [
      ("name", .obj [("type", .str "string")])])])])]),
    ("paths", .obj [("/pets", .obj [
      ("get", operation "#/components/schemas/Pet/properties/name")])])]
where
  operation (text : String) : Json := .obj [("responses", .obj [
    ("200", .obj [("description", .str ""), ("content", .obj [("text/plain", .obj [
      ("schema", .obj [("$ref", .str text)])])])])])]

/-- A path whose operation asks for a name that is taken, and refers to all paths. -/
def morePets : String × Json := ("/Pets", .obj [("get", pets.operation "#/paths")])

/-- The graph that results from a document, whether it is accepted or not. -/
def graphOf (document : Json) : Graph Unit := (Graph.empty.parse document none).graph

/-- The models that are there already keep their names. -/
theorem appending_path_keeps_output_pets :
    Graph.Accepts Graph.empty (.obj pets) (graphOf (.obj pets)) ∧
    Graph.Accepts Graph.empty (appended pets morePets) (graphOf (appended pets morePets)) ∧
    Dict.keys (graphOf (.obj pets)).registry.models = ["Pet", "Name"] ∧
    Dict.keys (graphOf (appended pets morePets)).registry.models = ["Pet", "Name", "Paths"] ∧
    (graphOf (.obj pets)).registry.models <+: (graphOf (appended pets morePets)).registry.models := by
  have accepted : Graph.Accepts Graph.empty (.obj pets) (graphOf (.obj pets)) :=
    .of_isOk (by decide +kernel)
  have accepted' : Graph.Accepts Graph.empty (appended pets morePets)
      (graphOf (appended pets morePets)) := .of_isOk (by decide +kernel)
  refine ⟨accepted, accepted', by decide +kernel, by decide +kernel, ?_⟩
  refine (appending_path_keeps_output accepted accepted' fun text followed => ?_).1
  cases followed with
  | @reference _ q run known =>
    have keys : Dict.keys ((walk (.obj pets)).run.run .start).2.registry.named =
        ["#/components/schemas/Pet", "#/components/schemas/Pet/properties/name"] := by
      decide +kernel
    rw [show (walk (.obj pets)).run.run .start = (_, q) from run] at keys
    rw [keys] at known
    obtain rfl | rfl : text = _ ∨ text = _ := by simpa using known
    · rfl
    · rfl
  | @link _ _ node _ asked chased =>
    have nodes : ∀ node ∈ Walk.nodes (Walk.listed (.obj pets)),
        (node.get? "$ref").isNone = true := by decide +kernel
    have plain : ∀ entry ∈ Walk.listed (.obj pets), (entry.2.get? "$ref").isNone = true := by
      decide +kernel
    have mem := asked.mem fun entry he => Option.isNone_iff_eq_none.1 (plain entry he)
    simp [ApiGraph.chased, Option.isNone_iff_eq_none.1 (nodes node mem)] at chased

end ApiGraph
