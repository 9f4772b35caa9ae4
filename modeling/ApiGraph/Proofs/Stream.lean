import ApiGraph.Proofs.Dict
import ApiGraph.Proofs.FreeVariant
import ApiGraph.Proofs.Made

/-! The stream of deliveries of an accepted document: path by path, each after its operations, and
then each registered model under its own kind and as a model. Listeners hear this stream, and the
snapshot sorts it by category. -/

namespace ApiGraph

open Resolving

/-- The deliveries of a path: its operations, and the path itself. -/
def Visit.stream (v : Visit) : List (Kind × Entity) :=
  v.methods.map (fun m => (.method, .method m)) ++ [(.path, .path v.path)]

/-- The deliveries of a model: under its own kind, and as a model. -/
def Model.stream (m : Model) : List (Kind × Entity) := [(m.kind, .model m), (.model, .model m)]

/-- The deliveries of some paths and of some models. -/
def stream (visits : List Visit) (models : Dict String Model) : List (Kind × Entity) :=
  visits.flatMap Visit.stream ++ (Dict.values models).flatMap Model.stream

/-- The entities that were delivered under a category. -/
def under (k : Kind) (xs : List (Kind × Entity)) : List Entity :=
  (xs.filter (·.1 == k)).map Prod.snd

variable {document : Json} {visits : List Visit} {models : Dict String Model} {k : Kind}
  {p q : Progress} {xs ys : List (Kind × Entity)}

theorem entities_spread (visits : List Visit) (models : Dict String Model) :
    (Walk.entities (visits.map Visit.walked) models).flatMap spread = stream visits models := by
  have visit (v : Visit) : (Path.notices v.walked).flatMap spread = v.stream := by
    rw [Path.notices, List.flatMap_append, List.flatMap_map, Visit.stream, List.map_eq_flatMap]
    rfl
  rw [Walk.entities, stream, List.flatMap_append, List.flatMap_map, List.flatMap_map,
    List.flatMap_assoc]
  simp only [visit]
  rfl

theorem under_append : under k (xs ++ ys) = under k xs ++ under k ys := by
  rw [under, List.filter_append, List.map_append]
  rfl

theorem under_flatMap {α : Type} {f : α → List (Kind × Entity)} {as : List α} :
    under k (as.flatMap f) = as.flatMap fun a => under k (f a) := by
  induction as with
  | nil => rfl
  | cons a as ih => rw [List.flatMap_cons, under_append, ih, List.flatMap_cons]

/-- Models are delivered under their kinds and as models only. -/
theorem under_stream_of_ne (hk : ∀ x ∈ models, x.2.kind ≠ k) (hm : k ≠ .model) :
    under k (stream visits models) = visits.flatMap fun v => under k v.stream := by
  have model : ∀ m ∈ Dict.values models, under k m.stream = [] := by
    intro m hm'
    obtain ⟨x, hx, rfl⟩ := List.mem_map.1 hm'
    simp [under, Model.stream, hk x hx, hm.symm]
  rw [stream, under_append, under_flatMap, under_flatMap, List.flatMap_eq_nil_iff.2 model,
    List.append_nil]

theorem under_method_stream (made : ∀ x ∈ models, x.2.kind.isMade = true) :
    under .method (stream visits models) = (visits.flatMap Visit.methods).map .method := by
  have visit (v : Visit) : under .method v.stream = v.methods.map .method := by
    rw [Visit.stream, under_append]
    simp [under, List.filter_map, Function.comp_def]
  rw [under_stream_of_ne (fun x hx hk => absurd (made x hx) (by rw [hk]; decide)) (by decide),
    List.map_flatMap]
  simp only [visit]

theorem under_path_stream (made : ∀ x ∈ models, x.2.kind.isMade = true) :
    under .path (stream visits models) = visits.map fun v => .path v.path := by
  have visit (v : Visit) : under .path v.stream = [.path v.path] := by
    rw [Visit.stream, under_append]
    simp [under, List.filter_map, Function.comp_def]
  rw [under_stream_of_ne (fun x hx hk => absurd (made x hx) (by rw [hk]; decide)) (by decide),
    List.map_eq_flatMap]
  simp only [visit]

/-- Paths and their operations are no models, and every model is delivered once as a model. -/
theorem under_model_stream (made : ∀ x ∈ models, x.2.kind.isMade = true) :
    under .model (stream visits models) = (Dict.values models).map .model := by
  have visit (v : Visit) : under .model v.stream = [] := by
    rw [Visit.stream, under_append]
    simp [under]
  have model : ∀ m ∈ Dict.values models, under .model m.stream = [.model m] := by
    intro m hm
    obtain ⟨x, hx, rfl⟩ := List.mem_map.1 hm
    have hk : x.2.kind ≠ .model := fun hk => absurd (made x hx) (by rw [hk]; decide)
    simp [under, Model.stream, hk]
  rw [stream, under_append, under_flatMap, under_flatMap, List.flatMap_congr model,
    ← List.map_eq_flatMap, List.flatMap_eq_nil_iff.2 fun v _ => visit v, List.nil_append]

theorem length_stream (visits : List Visit) (models : Dict String Model) :
    (stream visits models).length =
      (visits.flatMap Visit.methods).length + visits.length + 2 * models.length := by
  have paths (visits : List Visit) : (visits.flatMap Visit.stream).length =
      (visits.flatMap Visit.methods).length + visits.length := by
    induction visits with
    | nil => rfl
    | cons v visits ih =>
      rw [List.flatMap_cons, List.length_append, ih, Visit.stream, List.length_append,
        List.length_map, List.flatMap_cons, List.length_append, List.length_singleton,
        List.length_cons]
      omega
  have each : ((Dict.values models).flatMap Model.stream).length = 2 * models.length := by
    induction models with
    | nil => rfl
    | cons x models ih =>
      change (Model.stream x.2 ++ (Dict.values models).flatMap Model.stream).length = _
      rw [List.length_append, ih, List.length_cons, Nat.mul_add, Nat.add_comm]
      rfl
  rw [stream, List.length_append, paths, each]

namespace Snapshot

/-- A category holds its part of the stream. -/
theorem get_recordAll_eq_under (xs : List (List Kind × Entity)) (k : Kind) :
    (empty.recordAll xs).get k = under k (xs.flatMap spread) := by
  have one (x : List Kind × Entity) : List.replicate (x.1.count k) x.2 = under k (spread x) := by
    obtain ⟨categories, e⟩ := x
    induction categories with
    | nil => rfl
    | cons category rest ih =>
      by_cases h : category = k
      · subst h
        simpa [under, spread, List.replicate_succ] using ih
      · simpa [under, spread, h] using ih
  rw [get_recordAll, under_flatMap]
  simp only [one]
  rfl

theorem count_put (events : Dict Kind (List Entity)) (k : Kind) (e : Entity) :
    (Snapshot.mk (Dict.put events k ((events.lookup k).getD [] ++ [e])) models).count =
      (Snapshot.mk events models).count + 1 := by
  have sum (events : Dict Kind (List Entity)) (n : Nat) :
      events.foldl (fun n p => n + p.2.length) n =
        n + (events.map fun p => p.2.length).sum := by
    induction events generalizing n with
    | nil => rfl
    | cons x events ih => rw [List.foldl_cons, ih, List.map_cons, List.sum_cons, Nat.add_assoc]
  unfold count
  rw [sum, sum]
  induction events with
  | nil => rfl
  | cons x events ih =>
    obtain ⟨k', es⟩ := x
    cases hk : k == k' with
    | true =>
      simp [Dict.put, hk, List.lookup_cons]
      omega
    | false =>
      simp only [Dict.put, hk, List.lookup_cons, List.map_cons, List.sum_cons] at ih ⊢
      simp only [Bool.false_eq_true, if_false, List.map_cons, List.sum_cons]
      omega

/-- Every delivery of an entity counts. -/
theorem count_recordAll (s : Snapshot) (xs : List (List Kind × Entity)) :
    (s.recordAll xs).count = s.count + (xs.flatMap spread).length := by
  have one (s : Snapshot) (x : List Kind × Entity) :
      (s.recordUnder x).count = s.count + x.1.length := by
    obtain ⟨categories, e⟩ := x
    unfold recordUnder
    dsimp only
    induction categories generalizing s with
    | nil => rfl
    | cons category rest ih =>
      have here : (s.record category e).count = s.count + 1 := count_put s.events category e
      rw [List.foldl_cons, ih, here, List.length_cons]
      omega
  unfold recordAll
  induction xs generalizing s with
  | nil => rfl
  | cons x xs ih =>
    rw [List.foldl_cons, ih, one, List.flatMap_cons, List.length_append, spread, List.length_map]
    omega

end Snapshot

/-- Operations are told apart by their verbs and paths. -/
theorem Method.id_eq_iff {m k : Method} : m.id = k.id ↔ m.verb = k.verb ∧ m.path = k.path := by
  have split (v : Verb) (path : String) :
      (v.word ++ " " ++ path).toList = v.word.toList ++ ' ' :: path.toList := by simp
  have cut (v : Verb) (cs : List Char) :
      (v.word.toList ++ ' ' :: cs).takeWhile (· ≠ ' ') = v.word.toList := by
    cases v <;> rfl
  have word {v w : Verb} (h : v.word.toList = w.word.toList) : v = w := by
    have hv := Verb.ofWord?_word v
    rw [String.toList_injective h, Verb.ofWord?_word] at hv
    exact (Option.some.inj hv).symm
  constructor
  · intro h
    have h : m.verb.word.toList ++ ' ' :: m.path.toList =
        k.verb.word.toList ++ ' ' :: k.path.toList := by
      rw [← split, ← split]
      exact congrArg String.toList h
    have hv : m.verb = k.verb := word (by rw [← cut m.verb m.path.toList, h, cut])
    rw [hv] at h
    have ht := List.append_cancel_left h
    exact ⟨hv, String.toList_injective (List.cons.inj ht).2⟩
  · rintro ⟨hv, hp⟩
    rw [Method.id, Method.id, hv, hp]

theorem Verb.nodup_all : Verb.all.Nodup := by decide

/-- The operations of paths with different names have different identifiers. -/
theorem ids_nodup (unique : (visits.map fun v => v.entry.1).Nodup)
    (verbs : ∀ v ∈ visits, (v.methods.map Method.verb).Nodup)
    (paths : ∀ v ∈ visits, ∀ m ∈ v.methods, m.path = v.entry.1) :
    ((visits.flatMap Visit.methods).map Method.id).Nodup := by
  rw [List.map_flatMap]
  refine List.nodup_flatMap.2 ⟨fun v hv => ?_, ?_⟩
  · -- operations of one path differ in their verbs
    have hp : (v.methods.map Method.verb).Pairwise (· ≠ ·) := verbs v hv
    refine List.pairwise_map.2 ((List.pairwise_map.1 hp).imp fun hne he => ?_)
    exact hne (Method.id_eq_iff.1 he).1
  · have hp : visits.Pairwise fun v w => v.entry.1 ≠ w.entry.1 := List.pairwise_map.1 unique
    refine hp.imp_of_mem fun {v w} hv hw hne => ?_
    rintro _ hv' hw'
    obtain ⟨m, hm, rfl⟩ := List.mem_map.1 hv'
    obtain ⟨k, hk, he⟩ := List.mem_map.1 hw'
    have same : k.path = m.path := (Method.id_eq_iff.1 he).2
    exact hne (by rw [← paths v hv m hm, ← paths w hw k hk, same])

namespace Resolving

/-- Each step of a chain claims names that nobody has yet. -/
theorem Chain.claimed {α : Type} {step : α → Progress → Progress → Prop} {f : α → List String}
    {as : List α} {p q : Progress} (h : Chain step as p q)
    (one : ∀ a p q, step a p q → q.methodNames = (f a).reverse ++ p.methodNames ∧
      (p.methodNames.Nodup → q.methodNames.Nodup)) :
    q.methodNames = (as.flatMap f).reverse ++ p.methodNames ∧
      (p.methodNames.Nodup → q.methodNames.Nodup) := by
  induction h with
  | nil => exact ⟨rfl, id⟩
  | cons first rest ih =>
    obtain ⟨claimed, fresh⟩ := one _ _ _ first
    obtain ⟨more, still⟩ := ih
    refine ⟨?_, still ∘ fresh⟩
    rw [more, claimed, List.flatMap_cons, List.reverse_append, List.append_assoc]

end Resolving

theorem Stop.claimed {name : String} {item : Json} {stop : Stop}
    (h : stop.Made document name item p q) :
    q.methodNames = stop.method.name :: p.methodNames ∧ stop.method.name ∉ p.methodNames := by
  obtain ⟨⟨scope, s, hm, rfl⟩, -⟩ := h
  have trail := silent_resolveMethod (silent_resolveNode document) hm
  refine ⟨(Prod.mk.inj trail).2, ?_⟩
  obtain ⟨wanted, _, _, _, _, _, _, _, _, -, -, -, free, -⟩ := Method.resolve_runs hm
  rw [free]
  exact Registry.freeVariant_not_mem _ _

theorem Visit.claimed {v : Visit} (h : v.Made document p q) :
    q.methodNames = (v.methods.map Method.name).reverse ++ p.methodNames ∧
      (p.methodNames.Nodup → q.methodNames.Nodup) := by
  obtain ⟨-, -, -, -, -, -, s, chain, rfl⟩ := h
  have claimed := chain.claimed (f := fun stop => [stop.method.name]) fun stop p q made => by
    obtain ⟨claimed, fresh⟩ := stop.claimed made
    rw [claimed]
    exact ⟨rfl, fun nodup => List.nodup_cons.2 ⟨fresh, nodup⟩⟩
  rw [← List.map_eq_flatMap] at claimed
  rw [Visit.methods, List.map_map]
  exact claimed

/-- No two operations of a document have the same name. -/
theorem Graph.Account.names_nodup {τ : Type} {g' : Graph τ}
    (account : Graph.Account document g' visits) :
    ((visits.flatMap Visit.methods).map Method.name).Nodup := by
  obtain ⟨s, t, hc, chain, -⟩ := account.run
  obtain ⟨claimed, fresh⟩ := chain.claimed (f := fun v => v.methods.map Method.name)
    fun v p q made => v.claimed made
  have start : s.methodNames = [] :=
    (Component.silent_collect (silent_resolveNode document) hc).methodNames
  have nodup := fresh (by rw [start]; exact List.nodup_nil)
  rw [claimed, start, List.append_nil, List.nodup_reverse, ← List.map_flatMap] at nodup
  exact nodup

/-- The snapshot holds the stream category by category. -/
theorem Graph.Account.get_eq_under {τ : Type} {g' : Graph τ}
    (account : Graph.Account document g' visits) (k : Kind) :
    g'.snapshot.get k = under k (stream visits g'.registry.models) := by
  rw [← entities_spread, ← Snapshot.get_recordAll_eq_under, account.snapshot]
  rfl

namespace Datum

variable {value : Datum} {key : String} {entries : List (String × Json)} {v : Json}

theorem mem_entriesToJson {given : List (Datum × Datum)} {made : List (String × Json)}
    (h : entriesToJson given = .ok made) (hm : (key, v) ∈ made) : ∃ d : Datum, d.toJson = .ok v := by
  induction given generalizing made with
  | nil =>
    cases h
    cases hm
  | cons x given ih =>
    obtain ⟨k, d⟩ := x
    simp only [entriesToJson, bind, Except.bind] at h
    split at h
    · cases h
    split at h
    · cases h
    next w hd =>
    split at h
    · cases h
    next more hr =>
    cases h
    rcases List.mem_cons.1 hm with he | hm
    · exact ⟨d, by rw [hd, (Prod.mk.inj he).2]⟩
    · exact ih hr hm

/-- Only a mapping is read as an object. -/
theorem toJson_obj (form : value.toJson = .ok (.obj entries)) :
    ∃ given made, entriesToJson given = .ok made ∧ entries = Dict.ofEntries made := by
  cases value with
  | map given =>
    unfold toJson at form
    cases hmade : entriesToJson given with
    | error flaw =>
      rw [hmade] at form
      cases form
    | ok made =>
      rw [hmade] at form
      exact ⟨given, made, hmade, (Json.obj.inj (Except.ok.inj form)).symm⟩
  | int | set =>
    unfold toJson at form
    split at form <;> cases form
  | list items =>
    unfold toJson at form
    cases hi : itemsToJson items <;> rw [hi] at form <;> cases form
  | pair a b =>
    unfold toJson at form
    cases ha : a.toJson <;> cases hb : b.toJson <;> rw [ha, hb] at form <;> cases form
  | _ =>
    unfold toJson at form
    cases form

/-- An object that was read has no key twice. -/
theorem nodup_keys (form : value.toJson = .ok (.obj entries)) : (Dict.keys entries).Nodup := by
  obtain ⟨-, made, -, rfl⟩ := toJson_obj form
  exact Dict.nodup_keys_ofEntries made

theorem toJson_get (form : value.toJson = .ok document)
    (h : document.get key = .obj entries) : ∃ d : Datum, d.toJson = .ok (.obj entries) := by
  cases document with
  | obj given =>
    obtain ⟨given, made, hmade, rfl⟩ := toJson_obj form
    cases hl : List.lookup key (Dict.ofEntries made) with
    | none =>
      simp only [Json.get, Json.get?, hl] at h
      cases h
    | some w =>
      simp only [Json.get, Json.get?, hl] at h
      obtain rfl : w = .obj entries := h
      exact mem_entriesToJson hmade (Dict.mem_ofEntries (Dict.mem_of_lookup hl))
  | _ => cases h

/-- A document that was read lists no path twice. -/
theorem nodup_listed (form : value.toJson = .ok document) :
    (Dict.keys (Walk.listed document)).Nodup := by
  unfold Walk.listed
  split
  · next entries h =>
    obtain ⟨d, hd⟩ := toJson_get form h
    exact nodup_keys hd
  · exact List.nodup_nil

end Datum

/-- The deliveries of an accepted document are the stream of its paths and of its models, which
listeners hear and the snapshot holds category by category. Operations come in the fixed order of
verbs, models in the order of their registration. -/
theorem delivers_stream {τ : Type} {g : Graph τ} {c : Graph.Change τ} (h : g.Accepted document c)
    (unique : (Dict.keys (Walk.listed document)).Nodup) :
    ∃ visits, Graph.Account document c.graph visits ∧
      (∀ v ∈ visits, v.path.name = v.entry.1 ∧ v.path.methods = v.methods.map Method.id ∧
        v.methods.map Method.verb = Verb.all.filter (hasOperation v.item) ∧
        ∀ m ∈ v.methods, m.path = v.entry.1) ∧
      ((walk document).run.run .start).2.emitted.flatMap spread =
        stream visits c.graph.registry.models ∧
      c.heard = g.audience.hears (stream visits c.graph.registry.models) ∧
      (∀ k, c.graph.snapshot.get k = under k (stream visits c.graph.registry.models)) ∧
      c.graph.snapshot.get .model = (Dict.values c.graph.registry.models).map .model ∧
      ((visits.flatMap Visit.methods).map Method.id).Nodup ∧
      ((visits.flatMap Visit.methods).map Method.name).Nodup ∧
      c.graph.snapshot.count =
        (visits.flatMap Visit.methods).length + visits.length +
          2 * c.graph.registry.models.length := by
  obtain ⟨visits, account, emitted, heard⟩ := h.account
  have proper := h.accepts.proper
  obtain ⟨s, t, hc, chain, hr⟩ := account.run
  have made : ∀ v ∈ visits, v.path.name = v.entry.1 ∧ v.path.methods = v.methods.map Method.id ∧
      v.methods.map Method.verb = Verb.all.filter (hasOperation v.item) ∧
      ∀ m ∈ v.methods, m.path = v.entry.1 := by
    intro v hv
    obtain ⟨p, q, -, hn, -, hids, hverbs, hpaths, -⟩ := chain.mem hv
    exact ⟨hn, hids, hverbs, hpaths⟩
  refine ⟨visits, account, made, ?_, ?_, account.get_eq_under, ?_, ?_, account.names_nodup, ?_⟩
  · rw [emitted, entities_spread]
  · rw [heard, entities_spread]
  · rw [account.get_eq_under, under_model_stream fun x hx => (proper.2 x hx).1.kind]
  · refine ids_nodup ?_ (fun v hv => ?_) fun v hv => (made v hv).2.2.2
    · rwa [Dict.keys, ← account.entries, List.map_map] at unique
    · rw [(made v hv).2.2.1]
      exact Verb.nodup_all.filter _
  · rw [account.snapshot]
    change (Snapshot.empty.recordAll _).count = _
    rw [Snapshot.count_recordAll, entities_spread, length_stream]
    exact Nat.zero_add _

/-- A path with two operations that ask for the same name, and one without operations. -/
def twins : Json :=
  .obj [("openapi", .str "3.0.0"), ("paths", .obj [
    ("/pets", .obj [("post", operation), ("get", operation)]), ("/", .obj [])])]
where
  operation : Json := .obj [("operationId", .str "pets"), ("responses", .obj [
    ("200", .obj [("description", .str ""), ("content", .obj [("text/plain", .obj [
      ("schema", .obj [("enum", .arr [.str "cat"])])])])])])]

/-- The graph of nothing, with a listener to operations and one to all models. -/
def attended : Graph String :=
  (Graph.empty.on .method ⟨"operations", none⟩).on .model ⟨"models", none⟩

/-- The two operations are delivered in the order of their verbs, before all models. -/
theorem delivers_stream_twins :
    attended.Accepted twins (attended.parse twins none) ∧
      (attended.parse twins none).heard = [("operations", "get /pets"), ("operations", "post /pets"),
        ("models", "PetsGetTextPlain200")] ∧
      ∃ visits, Graph.Account twins (attended.parse twins none).graph visits ∧
        (attended.parse twins none).heard =
          attended.audience.hears (stream visits (attended.parse twins none).graph.registry.models) ∧
        ((visits.flatMap Visit.methods).map Method.name).Nodup := by
  have accepted : attended.Accepted twins (attended.parse twins none) := .of_isOk (by decide +kernel)
  obtain ⟨visits, account, -, -, heard, -, -, -, names, -⟩ :=
    delivers_stream accepted (by decide +kernel)
  exact ⟨accepted, by decide +kernel, visits, account, heard, names⟩

end ApiGraph
