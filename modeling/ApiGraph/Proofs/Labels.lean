import ApiGraph.Proofs.Distinct
import ApiGraph.Proofs.Graph
import ApiGraph.Proofs.Resolve.Collection
import ApiGraph.Proofs.Schema.Keyword

/-! What holds of the empty registry and is kept by each call on a registry holds of the registry that
an accepted document leaves. In this way every registered model has the extras of the node that it
was made from, which are written over its own when it is registered. -/

namespace ApiGraph

open Resolving Registry

section

variable {I : Registry → Prop} {r s : Registry} {document : Json}

theorem Registry.assert_keeps (step : ∀ r c, I r → I (r.after c)) {raw : Json} {parsed : Link Model}
    {hint : Option String} {space : KeySpace} {location : String} {found : Resolved}
    (ha : r.assert raw parsed hint space location = .ok (found, s)) (hr : I r) : I s := by
  have kept := step r (.assert raw parsed hint space location) hr
  rwa [after, ha] at kept

theorem Registry.reserve_keeps (step : ∀ r c, I r → I (r.after c)) {key wanted : String} {ref : Ref}
    (reserves : r.reserve key wanted = (ref, s)) (hr : I r) : I s := by
  have kept := step r (.reserve key wanted) hr
  rwa [after, reserves] at kept

/-- What each call on the registry keeps, the resolution of nodes keeps. -/
def keeping (document : Json) (step : ∀ r c, I r → I (r.after c)) : Traversal document where
  node _ _ r _ s := I r → I s
  parts _ r _ _ s := I r → I s
  handle r _ _ s := I r → I s
  nothing := id
  append first rest hr := rest (first hr)
  weaken whole _ _ := whole
  member {_ _ _ _ _ _ s out _} _ _ resolved hr := by
    cases out.result with
    | ref _ => exact resolved hr
    | model m => exact step s (.claim m.name) (resolved hr)
  item _ resolved := resolved
  reference resolved := resolved
  inner _ _ _ resolved := resolved
  content _ _ _ _ _ resolved ha hr := assert_keeps step ha (resolved hr)
  gathered _ _ _ _ _ _ ha := assert_keeps step ha
  model resolved _ _ _ _ _ _ _ _ _ _ _ := resolved
  refers _ resolved := resolved
  known _ _ _ := id
  remote _ := id
  declared _ _ := id
  followed {_ _ s text _ _ ref _ _} _ _ reserves resolved _ hr := by
    have hs := resolved (reserve_keeps step reserves hr)
    split
    · exact hs
    · exact step s (.redirect text ref.name) hs
  registered _ _ reserves resolved _ ha hr :=
    assert_keeps step ha (resolved (reserve_keeps step reserves hr))

theorem Component.base_keeps (start : I .empty) (step : ∀ r c, I r → I (r.after c)) (document : Json) :
    I (base document) := by
  unfold base
  generalize listed document = es, Registry.empty = r at start
  induction es generalizing r with
  | nil => exact start
  | cons e es ih => exact ih _ (step r (.reserve e.key (wanted r e)) start)

/-- What holds of the empty registry and is kept by each call holds of the registry that an accepted
document leaves. -/
theorem Graph.Accepts.keeps {τ : Type} {g g' : Graph τ} (h : Graph.Accepts g document g')
    (start : I .empty) (step : ∀ r c, I r → I (r.after c)) : I g'.registry := by
  obtain ⟨s, t, walked, hc, hp, hr, -⟩ := h.walked
  obtain ⟨⟨_, collected⟩, -⟩ := Component.collect_induction (keeping document step)
    (I := fun _ r => I r) (Component.base_keeps start step document)
    (fun _ _ _ _ traversed => traversed) (fun _ _ _ _ _ _ _ _ _ _ _ hr ha => assert_keeps step ha hr)
    (fun _ _ _ _ _ _ _ _ _ _ _ _ hr ha => assert_keeps step ha hr) rfl hc
  have paths := Traversal.resolvePaths (T := keeping document step) hp
  exact hr ▸ paths collected

end

/-- What every model has when it is registered holds of all registered models. -/
theorem Registry.models_after {P : Model → Prop} (enters : ∀ m name, P (entitled m name)) (r : Registry)
    (c : Call) (h : ∀ name m, r.models.lookup name = some m → P m) :
    ∀ name m, (r.after c).models.lookup name = some m → P m := by
  cases c with
  | reserve key name =>
    simp only [after, Registry.reserve]
    split <;> exact h
  | claim _ => exact h
  | redirect _ _ => exact h
  | assert raw parsed hint space location =>
    simp only [after]
    split
    · next found s ha =>
      obtain rfl | ⟨k, -, hk⟩ := assert_cases ha
      · exact h
      intro name m hm
      obtain rfl := congrArg Prod.snd hk
      obtain same | ⟨n, entered⟩ := register_models space (keyFor space raw k hint) k
      · exact h name m (same ▸ hm)
      obtain ⟨-, rfl⟩ | hm := lookup_put_cases (entered ▸ hm)
      · exact enters k n
      · exact h name m hm
    · exact h

/-- A model has the keywords of the node that it was made from. -/
structure Model.IsLabelled (m : Model) : Prop where
  validations : ∀ {key v}, (Schema.keywords m.source).validations.lookup key = some v →
    m.validations.lookup key = some v
  extras : ∀ {key v}, (Schema.keywords m.source).extras.lookup key = some v →
    m.extras.lookup key = some v

/-- A model has the keywords of its node once it is registered, whatever its own were. -/
theorem Registry.isLabelled_entitled (m : Model) (name : String) : (entitled m name).IsLabelled := by
  obtain ⟨validations, extras⟩ := Schema.nodup_keywords m.source
  have written {d es : Dict String Json} {key : String} {v : Json} (single : (Dict.keys es).Nodup)
      (h : es.lookup key = some v) : (Dict.merge d es).lookup key = some v := by
    rw [Dict.lookup_merge single, h]
    rfl
  exact ⟨written validations, written extras⟩

/-- Every registered model of an accepted document has the keywords of the node that it was made
from. -/
theorem Graph.Accepts.isLabelled {τ : Type} {g g' : Graph τ} {document : Json}
    (h : Graph.Accepts g document g') {name : String} {m : Model}
    (hm : g'.registry.models.lookup name = some m) : m.IsLabelled :=
  h.keeps (I := fun r => ∀ name m, r.models.lookup name = some m → m.IsLabelled) nofun
    (models_after isLabelled_entitled) name m hm

end ApiGraph
