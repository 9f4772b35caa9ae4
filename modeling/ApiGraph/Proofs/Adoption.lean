import ApiGraph.Proofs.Components
import ApiGraph.Proofs.Reload

/-! What a graph answers after it adopted the snapshot of an accepted document. A snapshot records
the names and their models, and no declared keys: every name is answered as before, and a key that
is no name is answered by the graph that resolved the document alone. -/

namespace ApiGraph

open Json Resolving Registry

variable {τ σ : Type} {document : Json} {g g' : Graph τ} {c : Graph.Change τ} {s : Snapshot}

/-- Two answers alike: both are missing, or they have the same handle and models that are written
alike. -/
def AnsweredAlike (x y : Option Resolved) : Prop :=
  Option.Rel (fun a b =>
    a.ref = b.ref ∧ Option.Rel (fun m k => Alike m.toJson k.toJson) a.model b.model) x y

/-- Whatever the listeners do, a graph has the models of the snapshot that it adopted. -/
theorem Graph.registry_loadJson {d : Json} (h : Snapshot.ofJson d = .ok s) (emit : Bool) :
    (g.loadJson d emit).graph.registry = .restore s.models := by
  unfold loadJson
  rw [h]
  cases emit <;> rfl

/-- A registry of models that are known from elsewhere answers their names and nothing else. -/
theorem Registry.resolve_restore {models : Dict String Model} (single : (Dict.keys models).Nodup)
    (key : String) :
    (restore models).resolve key = (models.lookup key).map fun m => ⟨.named key, some m⟩ := by
  have same : (restore models).models = models := Dict.ofEntries_of_nodup single
  rw [resolve, same, show (restore models).named = [] from rfl]
  split <;> rfl

/-- Every declared component of an accepted document stands for a name that has a model. -/
theorem Graph.Accepts.declared (h : Graph.Accepts g document g') {e : Component.Entry}
    (he : e ∈ Component.listed document) :
    ∃ name m, g'.registry.named.lookup e.key = some name ∧
      g'.registry.models.lookup name = some m := by
  obtain ⟨s, t, walked, hc, hp, hr, -⟩ := h.walked
  have collected := Component.collect_collected rfl hc
  have paths := Traversal.resolvePaths (T := extension document (Component.Undeclared document)) hp
  have grown : Grows (fun _ => False) s.registry t.registry :=
    (paths collected.ready.sound).2.of_new
  obtain ⟨name, hn⟩ := collected.ready.named e he
  obtain ⟨m, hm⟩ := contains_iff.1 (collected.model he hn)
  exact ⟨name, m, hr ▸ grown.name id hn, hr ▸ grown.lookup hm⟩

/-- A graph that adopts the written snapshot of an accepted document answers what remains of its
models, by their names. -/
theorem Graph.Accepted.resolve_adopted {other : Graph σ} (h : g.Accepted document c)
    (read : Snapshot.ofJson c.graph.snapshot.toJson = .ok s) (emit : Bool) (key : String) :
    (other.loadJson c.graph.snapshot.toJson emit).graph.resolve key =
      (c.graph.registry.models.lookup key).map fun m => ⟨.named key, some m.finite⟩ := by
  obtain ⟨visits, account, -⟩ := h.account
  have proper := h.accepts.proper
  obtain rfl := account.reread proper read
  have models : c.graph.snapshot.finite.models =
      c.graph.registry.models.map fun p => (p.1, p.2.finite) := by
    rw [Snapshot.finite, account.snapshot]
  have single : (Dict.keys c.graph.snapshot.finite.models).Nodup := by
    rw [models, Dict.keys_map]
    exact proper.1
  rw [Graph.resolve, Graph.registry_loadJson read, resolve_restore single, models, Dict.lookup_map,
    Option.map_map]
  rfl

namespace Graph.Accepted

variable {other : Graph σ} {key : String}

/-- By its name a model is answered before and after. -/
theorem name_adopted (h : g.Accepted document c)
    (read : Snapshot.ofJson c.graph.snapshot.toJson = .ok s) (emit : Bool) {m : Model}
    (hm : c.graph.registry.models.lookup key = some m) :
    c.graph.resolve key = some ⟨.named key, some m⟩ ∧
      (other.loadJson c.graph.snapshot.toJson emit).graph.resolve key =
        some ⟨.named key, some m.finite⟩ :=
  ⟨resolve_of_lookup hm, by rw [h.resolve_adopted read, hm]; rfl⟩

/-- What is no name is not answered after. -/
theorem key_forgotten (h : g.Accepted document c)
    (read : Snapshot.ofJson c.graph.snapshot.toJson = .ok s) (emit : Bool)
    (missing : c.graph.registry.contains key = false) :
    (other.loadJson c.graph.snapshot.toJson emit).graph.resolve key = none := by
  rw [h.resolve_adopted read, contains_eq_false_iff.1 missing]
  rfl

/-- The key of a component that is no name is answered before. -/
theorem resolve_declared (h : g.Accepted document c) {e : Component.Entry}
    (he : e ∈ Component.listed document) (missing : c.graph.registry.contains e.key = false) :
    ∃ name m, c.graph.resolve e.key = some ⟨.named name, some m⟩ := by
  obtain ⟨name, m, known, hm⟩ := h.accepts.declared he
  refine ⟨name, m, ?_⟩
  rw [Graph.resolve, resolve_of_named missing known, hm]
  rfl

/-- What remains of a model is written alike, if no format and no enumeration in it is a double
without a JSON form. -/
theorem alike_finite (h : g.Accepted document c)
    (formatted : ∀ x ∈ c.graph.registry.models,
      x.2.Formatted ∧ ∀ k : Model, (Link.model k).Within x.2.inner → k.Formatted)
    {m : Model} (hm : c.graph.registry.models.lookup key = some m) : Alike m.finite.toJson m.toJson := by
  have member := Dict.mem_of_lookup hm
  obtain ⟨made, inner⟩ := h.accepts.proper.2 _ member
  exact Model.alike_toJson
    (Model.throughout_bounded made inner (formatted _ member).1 (formatted _ member).2)

end Graph.Accepted

/-- By its name every model is answered after its snapshot was adopted as it was before, if no
format and no enumeration is a double without a JSON form. A key that is no name is answered by the
graph that resolved the document when it stands for a name, as the key of each component does, and
never by a graph that adopted the snapshot. -/
theorem names_outlast_keys (h : g.Accepted document c)
    (read : Snapshot.ofJson c.graph.snapshot.toJson = .ok s) (other : Graph σ) (emit : Bool) :
    let r := (other.loadJson c.graph.snapshot.toJson emit).graph
    (∀ key m, c.graph.registry.models.lookup key = some m →
      c.graph.resolve key = some ⟨.named key, some m⟩ ∧
        r.resolve key = some ⟨.named key, some m.finite⟩) ∧
    (∀ key, (r.resolve key).isSome = (c.graph.resolve key).isSome ↔
      (c.graph.registry.contains key = true ∨ c.graph.resolve key = none)) ∧
    (∀ e ∈ Component.listed document, c.graph.registry.contains e.key = false →
      (∃ name m, c.graph.resolve e.key = some ⟨.named name, some m⟩) ∧ r.resolve e.key = none) ∧
    ((∀ x ∈ c.graph.registry.models,
        x.2.Formatted ∧ ∀ k : Model, (Link.model k).Within x.2.inner → k.Formatted) →
      ∀ key, AnsweredAlike (r.resolve key) (c.graph.resolve key) ↔
        (c.graph.registry.contains key = true ∨ c.graph.resolve key = none)) := by
  intro r
  have named {key : String} {m : Model} (hm : c.graph.registry.models.lookup key = some m) :
      c.graph.resolve key = some ⟨.named key, some m⟩ ∧
        r.resolve key = some ⟨.named key, some m.finite⟩ := h.name_adopted read emit hm
  have forgotten {key : String} (missing : c.graph.registry.contains key = false) :
      r.resolve key = none := h.key_forgotten read emit missing
  refine ⟨fun key m => named, fun key => ?_,
    fun e he missing => ⟨h.resolve_declared he missing, forgotten missing⟩, fun formatted key => ?_⟩
  · cases registered : c.graph.registry.contains key with
    | true =>
      obtain ⟨m, hm⟩ := contains_iff.1 registered
      obtain ⟨before, after⟩ := named hm
      rw [before, after]
      exact iff_of_true rfl (.inl rfl)
    | false =>
      rw [forgotten registered]
      cases c.graph.resolve key <;> simp
  · cases registered : c.graph.registry.contains key with
    | true =>
      obtain ⟨m, hm⟩ := contains_iff.1 registered
      obtain ⟨before, after⟩ := named hm
      rw [before, after]
      exact iff_of_true (.some ⟨rfl, .some (h.alike_finite formatted hm)⟩) (.inl rfl)
    | false =>
      rw [forgotten registered]
      constructor
      · intro same
        generalize c.graph.resolve key = answer at same
        cases same
        exact .inr rfl
      · rintro (no | none)
        · cases no
        · rw [none]
          exact .none

/-- A response that shares its name with a schema has a name of its own. It is answered by this name
before and after, and by its key only before. -/
theorem names_outlast_keys_namesakes :
    let c : Graph.Change Unit := Graph.empty.parse namesakes none
    let r := ((Graph.empty : Graph Unit).loadJson c.graph.snapshot.toJson false).graph
    Graph.empty.Accepted namesakes c ∧ (∃ s, Snapshot.ofJson c.graph.snapshot.toJson = .ok s) ∧
      (∃ m, c.graph.resolve "PetResponse2" = some ⟨.named "PetResponse2", some m⟩ ∧
        r.resolve "PetResponse2" = some ⟨.named "PetResponse2", some m.finite⟩) ∧
      AnsweredAlike (r.resolve "PetResponse2") (c.graph.resolve "PetResponse2") ∧
      (∃ name m, c.graph.resolve (Pointer.component "responses" "Pet") =
        some ⟨.named name, some m⟩) ∧
      r.resolve (Pointer.component "responses" "Pet") = none := by
  intro c r
  have accepted : Graph.empty.Accepted namesakes c := .of_isOk (by decide +kernel)
  have readable : (Snapshot.ofJson c.graph.snapshot.toJson).isOk = true := by decide +kernel
  obtain ⟨s, read⟩ : ∃ s, Snapshot.ofJson c.graph.snapshot.toJson = .ok s := by
    cases h : Snapshot.ofJson c.graph.snapshot.toJson with
    | ok s => exact ⟨s, rfl⟩
    | error flaw =>
      rw [h] at readable
      cases readable
  obtain ⟨named, -, keys, alike⟩ :=
    names_outlast_keys accepted read (Graph.empty : Graph Unit) false
  obtain ⟨m, hm⟩ := contains_iff.1
    (show c.graph.registry.contains "PetResponse2" = true by decide +kernel)
  let e : Component.Entry :=
    ⟨⟨"responses", "Response", some .response⟩, "Pet", .obj [("description", .str "")]⟩
  have declared : e ∈ Component.listed namesakes :=
    List.mem_flatMap.2
      ⟨⟨"responses", "Response", some .response⟩, by simp [Component.groups], .head _⟩
  obtain ⟨before, after⟩ := keys e declared (by decide +kernel)
  have plain : (c.graph.registry.models.all fun x => !x.2.subtype.isUnbounded &&
      !x.2.enum.isUnbounded && x.2.fields.isEmpty && x.2.inner.isEmpty) = true := by
    decide +kernel
  have formatted : ∀ x ∈ c.graph.registry.models,
      x.2.Formatted ∧ ∀ k : Model, (Link.model k).Within x.2.inner → k.Formatted := by
    intro x hx
    have bounded := List.all_eq_true.1 plain x hx
    simp only [Bool.and_eq_true, Bool.not_eq_true', List.isEmpty_iff] at bounded
    obtain ⟨⟨⟨subtype, enum⟩, fields⟩, inner⟩ := bounded
    refine ⟨⟨subtype, enum, by simp [fields]⟩, fun k within => ?_⟩
    rw [inner] at within
    rcases within with ⟨⟨⟩⟩ | ⟨⟨⟩⟩
  have same := (alike formatted "PetResponse2").2 (.inl (contains_iff.2 ⟨m, hm⟩))
  exact ⟨accepted, ⟨s, read⟩, ⟨m, named _ m hm⟩, same, before, after⟩

/-- A description of one schema. -/
def onePet : Json :=
  .obj [("openapi", .str "3.0.0"), ("components", .obj [("schemas", .obj [("Pet", .obj [])])])]

/-- The key of a component is answered by the graph that resolved it, and is unknown to a graph that
adopted the snapshot. -/
theorem declared_key_is_forgotten :
    let c : Graph.Change Unit := Graph.empty.parse onePet none
    let r : Graph.Change Unit := Graph.empty.loadJson c.graph.snapshot.toJson true
    c.outcome.isOk = true ∧ r.outcome.isOk = true ∧
      (c.graph.resolve "#/components/schemas/Pet").map Resolved.ref = some (.named "Pet") ∧
      (c.graph.resolve "Pet").map Resolved.ref = some (.named "Pet") ∧
      (r.graph.resolve "#/components/schemas/Pet").isNone = true ∧
      (r.graph.resolve "Pet").map Resolved.ref = some (.named "Pet") := by
  decide +kernel

end ApiGraph
