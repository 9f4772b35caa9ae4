import ApiGraph.Proofs.Identifier
import ApiGraph.Proofs.Resolve.Operation
import ApiGraph.Proofs.Resolve.Shaped

/-! The names that models get while they are resolved. A model has the name that it is resolved under;
where there is none, a parameter is named after its place and a security scheme after its type, which
makes identifiers of both. Operations, aggregates and payloads have identifiers, but for an operation
whose own identifier has nothing to keep. -/

namespace ApiGraph

open Resolving Text

variable {document node : Json} {self : Resolver} {scope : Scope} {site : Site} {p q : Progress}
  {given name : String} {m m' : Model} {out : Outcome} {needs : List (Link Model)}

/-- A model has the name that was given for it, or a name of its own when none was given. -/
def Titled (given name : String) : Prop := name = given ∨ given = "" ∧ IsIdentifier name

/-- A given name is kept. -/
theorem Titled.eq (h : Titled given name) (nonempty : given ≠ "") : name = given :=
  h.resolve_right fun h => nonempty h.1

theorem isIdentifier_parameter (place : ParameterPlace) (declared : List Char) :
    IsIdentifier (String.ofList (Naming.parameter place.word.toList declared)) :=
  isIdentifier_ofList (Parameter.parameter_ne_nil place declared)
    fun _ => Naming.isWord_of_mem_parameter

theorem Parameter.nameFor_titled {place : ParameterPlace}
    (h : Runs (nameFor given place node) p name q) : Titled given name := by
  simp only [nameFor, runs_ite, runs_pure] at h
  split at h
  · exact .inl h.1
  · next hg =>
    split at h
    · obtain ⟨rfl, -⟩ := runs_pure.1 h
      exact .inr ⟨by simpa using hg, isIdentifier_parameter place _⟩
    · exact (runs_fail.1 h).elim

theorem Parameter.resolveValues_name {schema : Option Json}
    (h : Runs (resolveValues self scope schema m) p m' q) : m'.name = m.name := by
  obtain ⟨-, -, rfl⟩ | ⟨_, _, _, -, -, ⟨_, -, -, rfl⟩ | ⟨_, _, _, -, -, -, -, rfl⟩ | ⟨_, -, -, -, rfl⟩⟩ :=
    resolveValues_runs h
  all_goals rfl

theorem Parameter.resolve_titled (h : Runs (resolve self scope given node) p m q) :
    Titled given m.name := by
  obtain ⟨place, name, description, schema, mid, hn, -, hv, hm⟩ := resolve_cases h
  have same : mid.name = name := resolveValues_name hv
  have titled := nameFor_titled hn
  rw [← same] at titled
  obtain rfl | rfl := hm <;> exact titled

/-- The types of security schemes are words. -/
theorem isIdentifier_securityType {type : String} (h : Schema.securityTypes.contains type = true) :
    IsIdentifier ("Auth" ++ String.ofList (Naming.upperFirst type.toList)) := by
  have known {lower : String} (upper : String) (hu : Naming.upperFirst lower.toList = upper.toList)
      (word : upper.toList.all isWord = true) :
      IsIdentifier ("Auth" ++ String.ofList (Naming.upperFirst lower.toList)) := by
    rw [hu, String.ofList_toList]
    exact IsIdentifier.appends (by decide +kernel) (.append (List.all_eq_true.1 word))
  simp only [Schema.securityTypes, List.contains_iff_mem, List.mem_cons, List.not_mem_nil,
    or_false] at h
  obtain rfl | rfl | rfl | rfl := h
  · exact known "Http" (by decide +kernel) (by decide +kernel)
  · exact known "ApiKey" (by decide +kernel) (by decide +kernel)
  · exact known "Oauth2" (by decide +kernel) (by decide +kernel)
  · exact known "OpenIdConnect" (by decide +kernel) (by decide +kernel)

theorem resolveSecurityScheme_titled {hint : Option Schema.Form}
    (form : Schema.formOf node hint = .securityScheme)
    (h : Runs (resolveSecurityScheme scope given node) p m q) : Titled given m.name := by
  obtain ⟨type, ht, known⟩ := Schema.securityType_of_formOf form
  obtain ⟨name, description, hn, rfl⟩ := resolveSecurityScheme_cases h
  rw [Json.get, ht, Option.getD_some] at hn
  unfold securitySchemeName at hn
  rw [runs_ite] at hn
  split at hn
  · exact .inl (runs_pure.1 hn).1
  · next hg =>
    obtain ⟨rfl, -⟩ := runs_pure.1 hn
    exact .inr ⟨by simpa using hg, isIdentifier_securityType known⟩

theorem Occasion.isIdentifier_payloadName {o : Occasion} {verb : Verb} (h : o.verb = verb.word)
    (mediaType status : Option String) : IsIdentifier (o.payloadName mediaType status) :=
  ⟨payloadName_ne_empty h mediaType status, fun c hc => by
    rw [payloadName, String.toList_ofList] at hc
    exact Naming.isWord_of_mem_response hc⟩

/-- The word for a verb begins with a word character. -/
theorem Verb.exists_isWord (verb : Verb) : ∃ c ∈ verb.word.toList, isWord c = true := by
  rw [← List.any_eq_true]
  cases verb <;> decide

end ApiGraph
