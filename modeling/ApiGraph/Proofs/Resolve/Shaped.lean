import ApiGraph.Proofs.Json.Inside
import ApiGraph.Proofs.Resolve.Node
import ApiGraph.Proofs.Schema.Keyword

/-! Which models stand for an object, a map or a combination: only those of schemas that have
members, branches or additional properties. A model of a parameter never does. -/

namespace ApiGraph

open Resolving

namespace Schema

/-- Whether a node is no array and has properties, combinations or additional properties. -/
def isStructured (node : Json) : Bool :=
  (declaredType node).1 != some "array" && (isComposite node || node.has "additionalProperties")

variable {document node : Json} {self : Resolver} {site : Site} {p q : Progress} {m m' : Model}
  {out : Outcome} {needs : List (Link Model)}

/-- A schema starts as a model without members, branches and additional properties. -/
theorem outline_shape (h : Runs (outline site node) p m q) :
    m.fields = [] ∧ m.allOf = none ∧ m.anyOf = none ∧ m.oneOf = none ∧
      Dict.has m.extras "additionalProperties" = false := by
  simp only [outline, runs_bind, runs_fit, runs_pure] at h
  obtain ⟨_, _, ⟨_, rfl⟩, rfl, rfl⟩ := h
  exact ⟨rfl, rfl, rfl, rfl, by rw [Dict.has, lookup_extras (by decide)]; rfl⟩

/-- Only additional properties of a node become additional properties of its model. -/
theorem resolveMapValues_shape (h : Runs (resolveMapValues self site node m) p (m', needs) q)
    (closed : node.has "additionalProperties" = false) : m' = m := by
  have null := Json.get_of_has closed
  obtain ⟨_, -, object, -⟩ | ⟨-, -, ⟨declared, -⟩ | ⟨-, same⟩⟩ := resolveMapValues_runs h
  · rw [null] at object
    cases object
  · rw [null] at declared
    cases declared
  · exact same

/-- A model of a schema that stands for an object was made from a node that says so. -/
theorem resolve_shape (h : Runs (resolve document self site node) p out q)
    (hm : out.result = .model m) (shaped : Parameter.isObjectShaped m = true) :
    isStructured node = true := by
  obtain ⟨ref, -, -, -, rfl⟩ | ⟨start, k, needs, hs, hp, rfl⟩ := resolve_runs h
  · cases hm
  obtain ⟨fields, allOf, anyOf, oneOf, extras⟩ := outline_shape hs
  have same : Parameter.isObjectShaped k = true := by
    split at hm <;> obtain rfl := Link.model.inj hm <;> exact shaped
  obtain ⟨-, ha⟩ | ⟨other, mid, hd, s, hmap, hc⟩ := resolveParts_runs hp
  · obtain ⟨items, item, s, -, -, ⟨_, -, -, -, -, rfl⟩ | ⟨-, -, -, rfl⟩⟩ := resolveArray_runs ha
    all_goals cases same
  rw [isStructured, Bool.and_eq_true, bne_iff_ne]
  refine ⟨other, ?_⟩
  obtain ⟨composite, -⟩ | ⟨-, -, -, rfl⟩ := hc
  · rw [composite, Bool.true_or]
  cases closed : node.has "additionalProperties" with
  | true => exact Bool.or_true _
  | false =>
    obtain rfl := resolveMapValues_shape hmap closed
    obtain ⟨_, _, _, plain, -⟩ := resolvePlain_eq node mid
    rw [plain] at same
    simp [Parameter.isObjectShaped, fields, allOf, anyOf, oneOf, extras] at same

end Schema

variable {self : Resolver} {scope : Scope} {node : Json} {p q : Progress} {given : String} {m m' : Model}

/-- The values of a parameter make no object of its model. -/
theorem Parameter.resolveValues_shape {schema : Option Json} (fields : m.fields = [])
    (allOf : m.allOf = none) (anyOf : m.anyOf = none) (oneOf : m.oneOf = none) (extras : m.extras = [])
    (h : Runs (resolveValues self scope schema m) p m' q) : isObjectShaped m' = false := by
  have bare {k : Model} (hk : k.fields = m.fields ∧ k.allOf = m.allOf ∧ k.anyOf = m.anyOf ∧
      k.oneOf = m.oneOf ∧ k.extras = m.extras) : isObjectShaped k = false := by
    obtain ⟨hf, ha, hb, hc, he⟩ := hk
    simp [isObjectShaped, hf, ha, hb, hc, he, fields, allOf, anyOf, oneOf, extras, Dict.has]
  obtain ⟨-, -, rfl⟩ | ⟨v, out, s, -, -, ⟨ref, -, -, rfl⟩ | ⟨_, found, _, -, -, -, -, rfl⟩ |
    ⟨parsed, -, other, -, rfl⟩⟩ := resolveValues_runs h
  · exact bare ⟨rfl, rfl, rfl, rfl, rfl⟩
  · exact bare ⟨rfl, rfl, rfl, rfl, rfl⟩
  · exact bare ⟨rfl, rfl, rfl, rfl, rfl⟩
  · unfold isObjectShaped at other ⊢
    rw [Bool.and_eq_false_iff] at other ⊢
    refine other.imp_right fun other => ?_
    simp only [Bool.or_eq_false_iff] at other
    simp [takesOver, fields, allOf, anyOf, oneOf, other.2]

theorem Parameter.resolve_shape (h : Runs (resolve self scope given node) p m q) :
    isObjectShaped m = false := by
  obtain ⟨place, name, description, schema, mid, -, -, hv, hm⟩ := resolve_cases h
  have shape := resolveValues_shape rfl rfl rfl rfl rfl hv
  obtain rfl | rfl := hm <;> exact shape

theorem resolveSecurityScheme_shape (h : Runs (resolveSecurityScheme scope given node) p m q) :
    Parameter.isObjectShaped m = false := by
  obtain ⟨name, description, -, rfl⟩ := resolveSecurityScheme_cases h
  rfl

end ApiGraph
