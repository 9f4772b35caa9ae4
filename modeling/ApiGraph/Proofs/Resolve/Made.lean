import ApiGraph.Proofs.Resolve.Component

/-! What every model has that a resolution makes: a kind of models, which is neither that of a
handle nor a category of its own, and the object that it was made from, if any. -/

namespace ApiGraph

open Resolving

/-- Whether models of the kind are made. Operations and paths are no models, handles lead to
models, `model` is a category only, and `primitive` is no kind of anything. -/
def Kind.isMade (k : Kind) : Bool :=
  [Kind.schema, .parameter, .queryParameter, .headerParameter, .pathParameter, .securityScheme,
    .response, .requestBody, .methodParam].contains k

/-- A model as a resolution makes it. -/
structure Model.Made (m : Model) : Prop where
  kind : m.kind.isMade = true
  source : m.source.isNull = true ∨ m.source.isObject = true

theorem Model.Made.of_eq {m k : Model} (h : m.Made) (hk : k.kind = m.kind) (hs : k.source = m.source) :
    k.Made := ⟨hk ▸ h.kind, hs ▸ h.source⟩

theorem ParameterPlace.isMade_kind (place : ParameterPlace) : place.kind.isMade = true := by
  cases place <;> rfl

variable {document node : Json} {self : Resolver} {scope : Scope} {site : Site} {p q : Progress}
  {name : String} {m m' : Model} {out : Outcome} {needs : List (Link Model)} {link : Link Model}

namespace Schema

/-- The parts of a schema change neither its kind nor its source. -/
theorem resolveParts_kind (h : Runs (resolveParts document self site node m) p (m', needs) q) :
    m'.kind = m.kind ∧ m'.source = m.source := by
  obtain ⟨-, ha⟩ | ⟨-, mid, hd, s, hm, hc⟩ := resolveParts_runs h
  · obtain ⟨items, out, s, -, -, ⟨_, -, -, -, -, rfl⟩ | ⟨-, -, -, rfl⟩⟩ := resolveArray_runs ha
    all_goals exact ⟨rfl, rfl⟩
  have hmid : mid.kind = m.kind ∧ mid.source = m.source := by
    obtain ⟨out, -, -, -, rfl⟩ | ⟨-, -, ⟨-, rfl⟩ | ⟨-, rfl⟩⟩ := resolveMapValues_runs hm
    all_goals exact ⟨rfl, rfl⟩
  obtain ⟨-, tl, hcomp, -⟩ | ⟨-, -, -, rfl⟩ := hc
  · obtain ⟨names, fs, allOf, anyOf, oneOf, n₀, n₁, n₂, n₃, p₁, p₂, p₃, -, -, -, -, -, rfl, -⟩ :=
      resolveComposite_runs hcomp
    exact hmid
  · obtain ⟨_, _, _, plain, -⟩ := resolvePlain_eq node mid
    rw [plain]
    exact hmid

theorem resolve_kind (h : Runs (resolve document self site node) p out q)
    (hm : out.result = .model m) : m.kind = .schema ∧ m.source = node := by
  obtain ⟨ref, -, -, -, rfl⟩ | ⟨start, k, needs, hs, hp, rfl⟩ := resolve_runs h
  · cases hm
  obtain ⟨-, -, hk, hsrc, -⟩ := outline_runs hs
  obtain ⟨hk', hsrc'⟩ := resolveParts_kind hp
  split at hm <;> obtain rfl := Link.model.inj hm <;> exact ⟨hk'.trans hk, hsrc'.trans hsrc⟩

theorem resolve_made (ho : node.isObject = true)
    (h : Runs (resolve document self site node) p out q) (hm : out.result = .model m) : m.Made := by
  obtain ⟨hk, hs⟩ := resolve_kind h hm
  exact ⟨by rw [hk]; rfl, Or.inr (hs ▸ ho)⟩

end Schema

theorem Parameter.resolve_kind (h : Runs (Parameter.resolve self scope name node) p m q) :
    (∃ place : ParameterPlace, m.kind = place.kind) ∧ m.source = node := by
  obtain ⟨start, schema, mid, -, -, ⟨place, hk⟩, hs, -, -, -, -, -, hv, hm⟩ := Parameter.resolve_runs h
  have hmid : mid.kind = start.kind ∧ mid.source = start.source := by
    obtain ⟨-, -, rfl⟩ | ⟨v, out, s, -, -, ⟨_, -, -, rfl⟩ | ⟨_, _, _, -, -, -, -, rfl⟩ |
      ⟨_, -, -, -, rfl⟩⟩ := Parameter.resolveValues_runs hv
    all_goals exact ⟨rfl, rfl⟩
  obtain rfl | rfl := hm
  all_goals exact ⟨⟨place, hmid.1.trans hk⟩, hmid.2.trans hs⟩

theorem Parameter.resolve_made (ho : node.isObject = true)
    (h : Runs (Parameter.resolve self scope name node) p m q) : m.Made := by
  obtain ⟨⟨place, hk⟩, hs⟩ := Parameter.resolve_kind h
  exact ⟨hk ▸ place.isMade_kind, Or.inr (hs ▸ ho)⟩

theorem resolveSecurityScheme_made (ho : node.isObject = true)
    (h : Runs (resolveSecurityScheme scope name node) p m q) : m.Made := by
  obtain ⟨-, -, -, hk, hs, -⟩ := resolveSecurityScheme_runs h
  exact ⟨by rw [hk]; rfl, Or.inr (hs ▸ ho)⟩

/-- Whatever form a node has, the model that it is resolved into is made from it. -/
theorem resolveForm_made (h : Runs (resolveForm document self site node) p out q)
    (hm : out.result = .model m) : m.Made ∧ m.source = node := by
  obtain ⟨ho, ⟨-, ref, -, rfl⟩ | ⟨-, k, hk, rfl⟩ | ⟨-, k, hk, rfl⟩ | ⟨-, kind, k, hkind, hk, rfl⟩ |
    ⟨-, hs⟩⟩ := resolveForm_runs h
  · cases hm
  · obtain rfl := Link.model.inj hm
    obtain ⟨-, -, -, -, hs, -⟩ := resolveSecurityScheme_runs hk
    exact ⟨resolveSecurityScheme_made ho hk, hs⟩
  · obtain rfl := Link.model.inj hm
    exact ⟨Parameter.resolve_made ho hk, (Parameter.resolve_kind hk).2⟩
  · obtain rfl := Link.model.inj hm
    obtain ⟨headers, -, -, hkind', hs, -⟩ := Header.resolveHolder_runs hk
    refine ⟨⟨?_, Or.inr (hs ▸ ho)⟩, hs⟩
    rw [hkind']
    obtain rfl | rfl := hkind <;> rfl
  · exact ⟨Schema.resolve_made ho hs hm, (Schema.resolve_kind hs hm).2⟩

namespace Component

/-- A component was resolved into a model or into a handle, while models were found again in some
way. -/
def Resolves (document : Json) (space : KeySpace) (e : Entry) (link : Link Model) : Prop :=
  ∃ scope p q, scope.space = space ∧ Runs (resolve (resolveNode document) scope e) p link q

variable {e : Entry} {space : KeySpace}

theorem Resolves.isObject (h : Resolves document space e link) : e.node.isObject = true := by
  obtain ⟨scope, p, q, -, h⟩ := h
  obtain ⟨scope', entries, m, he, -⟩ | ⟨scope', out, ho, -⟩ := resolve_runs h
  · rw [he]
    rfl
  · obtain ⟨depth, hf⟩ := resolveNode_runs ho
    exact (resolveForm_runs hf).1

theorem Resolves.made (h : Resolves document space e (.model m)) : m.Made := by
  obtain ⟨scope, p, q, -, h⟩ := h
  obtain ⟨scope', entries, k, -, -, hk, hm, -⟩ | ⟨scope', out, ho, hout, -⟩ := resolve_runs h
  · obtain rfl := Link.model.inj hm
    exact Parameter.resolve_made rfl hk
  · obtain ⟨depth, hf⟩ := resolveNode_runs ho
    exact (resolveForm_made hf hout.symm).1

end Component

end ApiGraph
