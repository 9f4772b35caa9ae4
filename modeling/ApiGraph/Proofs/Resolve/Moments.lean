import ApiGraph.Proofs.Resolve.Following

/-! The moments at which a node of an operation is dereferenced. Between the collection of components
and such a moment there are only runs of the resolution, so that whatever these hand on holds of the
registry of the moment. -/

namespace ApiGraph

open Resolving

variable {document node operation item : Json} {scope : Scope} {p q : Progress} {r s t : Registry}
  {verb : Verb} {path name : String} {T : Traversal document}

/-- The identifier of an operation is taken over. -/
theorem Method.readHeader_operationId {identifier : String} {tags : List Json} {security : Json}
    {header : Header} (spells : operation.get "operationId" = .str identifier)
    (h : readHeader operation tags security = .fits header) : header.operationId = some identifier := by
  have both {α β : Type} {f : Shape.Checked (α → β)} {x : Shape.Checked α} {y : β}
      (h : f <*> x = .fits y) : ∃ g a, f = .fits g ∧ y = g a := by
    cases f <;> cases x <;> cases h
    exact ⟨_, _, rfl, rfl⟩
  unfold readHeader at h
  dsimp only at h
  rw [spells] at h
  obtain ⟨_, _, tagged, rfl⟩ := both h
  obtain ⟨_, _, described, rfl⟩ := both tagged
  obtain ⟨_, _, summarised, rfl⟩ := both described
  obtain ⟨_, _, named, rfl⟩ := both summarised
  cases named
  rfl

/-- The parameters of an operation are resolved first and gathered next. -/
theorem Method.resolveOpening_runs {self : Resolver} {a : Opening}
    (h : Runs (resolveOpening document self scope verb path item operation) p a q) :
    ∃ given params p₁ p₂ p₃ p₄, a.name = Registry.freeVariant p.methodNames
        (String.ofList (Naming.method given verb.word.toList path.toList)) ∧
      (given ≠ [] → a.header.operationId = some (String.ofList given)) ∧
      p₁.registry = p.registry ∧ Runs (Parameter.resolveAll self scope params) p₁ a.groups p₂ ∧
      Runs (Parameter.gather scope a.groups.path (a.name ++ "Path")) p₂ a.pathObject p₃ ∧
      Runs (Parameter.gather scope a.groups.query (a.name ++ "Query")) p₃ a.queryObject p₄ ∧
      Runs (Parameter.gather scope a.groups.header (a.name ++ "Headers")) p₄ a.headerObject q := by
  simp only [resolveOpening, runs_bind, runs_ite, runs_malformed, runs_fail, runs_fit,
    runs_pure] at h
  split at h
  · obtain ⟨_, _, hf, -⟩ := h
    exact hf.elim
  obtain ⟨wanted, _, hw, name, p₁, hn, tags, _, ht, h⟩ := h
  split at h
  · obtain ⟨_, _, hf, -⟩ := h
    exact hf.elim
  obtain ⟨params, _, hm, groups, p₂, hg, header, _, ⟨read, rfl⟩, po, p₃, h₁, qo, p₄, h₂, ho, p₅, h₃, rfl,
    rfl⟩ := h
  obtain ⟨rfl, given, rfl, spells⟩ := wantedName_runs hw
  obtain ⟨rfl, rfl⟩ := claimName_runs hn
  obtain rfl := itemsOf_runs ht
  obtain rfl := Parameter.merge_runs hm
  refine ⟨given, params, _, p₂, p₃, p₄, rfl, fun some => ?_, ?_, hg, h₁, h₂, h₃⟩
  · exact readHeader_operationId (spells some) read
  · rfl

/-- The responses of an operation are resolved, and then its request bodies. -/
theorem Method.resolveRest_runs {self : Resolver} {a : Opening} {m : Method}
    (h : Runs (resolveRest document self scope verb path operation a) p m q) :
    m = { m with
      name := a.name
      operationId := a.header.operationId
      pathObject := a.pathObject
      queryObject := a.queryObject
      headerObject := a.headerObject } ∧
    ∃ s, Runs (Response.resolveAll document self scope ⟨a.header.tags.head?, path, verb.word⟩
        (orElse (operation.get "responses") (.obj []))) p m.responses s ∧
      (q = s ∨ Runs (RequestBody.resolveAll document self scope
        ⟨a.header.tags.head?, path, verb.word⟩ (operation.get "requestBody")) s m.requestBodies q) := by
  simp only [resolveRest, runs_bind, runs_ite, runs_pure] at h
  split at h
  · obtain ⟨responses, s, hr, _, _, ⟨rfl, rfl⟩, rfl, rfl⟩ := h
    exact ⟨rfl, s, hr, .inl rfl⟩
  · obtain ⟨responses, s, hr, bodies, _, hb, rfl, rfl⟩ := h
    exact ⟨rfl, s, hr, .inr hb⟩

namespace Traversal

/-- A registry comes from another one by runs of the resolution. -/
def Reaches (T : Traversal document) (r s : Registry) : Prop := ∃ refs, T.Leaves r refs s

theorem Reaches.refl (r : Registry) : T.Reaches r r := ⟨[], Leaves.nil⟩

theorem Reaches.trans (h : T.Reaches r s) (h' : T.Reaches s t) : T.Reaches r t := by
  obtain ⟨refs, left⟩ := h
  obtain ⟨more, left'⟩ := h'
  exact ⟨_, left.append left'⟩

theorem reaches_opening {a : Method.Opening}
    (h : Runs (Method.resolveOpening document (resolveNode document) scope verb path item operation) p
      a q) : T.Reaches p.registry q.registry := by
  obtain ⟨given, params, p₁, p₂, p₃, p₄, hn, -, hr, hg, h₁, h₂, h₃⟩ := Method.resolveOpening_runs h
  have params := resolveParameters (T := T) hg
  rw [hr] at params
  exact ⟨_, params.append (gatherGroups hn h₁ h₂ h₃)⟩

theorem reaches_rest {a : Method.Opening} {m : Method}
    (h : Runs (Method.resolveRest document (resolveNode document) scope verb path operation a) p m q) :
    T.Reaches p.registry q.registry := by
  obtain ⟨-, s, hr, rfl | hb⟩ := Method.resolveRest_runs h
  · exact ⟨_, resolveResponses (sound_resolveNode T) (show _ = verb.word from rfl) hr⟩
  · exact .trans ⟨_, resolveResponses (sound_resolveNode T) (show _ = verb.word from rfl) hr⟩
      ⟨_, resolveBodies (sound_resolveNode T) (show _ = verb.word from rfl) hb⟩

end Traversal

open Traversal

theorem Response.Asked.reaches {o : Occasion} {entries : List (String × Json)}
    (hv : o.verb = verb.word) (h : Asked document (resolveNode document) scope o entries p r node) :
    T.Reaches p.registry r := by
  induction h with
  | here => exact .refl _
  | later first _ ih => exact .trans ⟨_, resolveResponse (sound_resolveNode T) hv first⟩ ih

theorem Method.Asked.reaches
    (h : Asked document (resolveNode document) scope verb path item operation p r node) :
    T.Reaches p.registry r := by
  cases h with
  | parameter => exact .refl _
  | response opened _ asked =>
    exact (reaches_opening opened).trans (asked.reaches (show _ = verb.word from rfl))
  | body opened responses _ =>
    exact (reaches_opening opened).trans
      ⟨_, resolveResponses (sound_resolveNode T) (show _ = verb.word from rfl) responses⟩

theorem Walk.OperationsAsked.reaches {verbs : List Verb}
    (h : OperationsAsked document (resolveNode document) scope path item verbs p r node) :
    T.Reaches p.registry r := by
  induction h with
  | here _ asked => exact asked.reaches
  | skip _ _ ih => exact ih
  | later _ first _ ih => exact .trans ⟨_, resolveMethod first⟩ ih

/-- Only runs of the resolution come before a node is dereferenced. -/
theorem Walk.Asked.reaches {entries : List (String × Json)}
    (h : Asked document (resolveNode document) scope entries p r node) : T.Reaches p.registry r := by
  induction h with
  | item => exact .refl _
  | operations _ asked => exact asked.reaches
  | later first _ ih =>
    obtain ⟨_, t, -, ho, -, -, -, rfl⟩ := Walk.path_runs first
    exact .trans ⟨_, resolveOperations ho⟩ ih

end ApiGraph
