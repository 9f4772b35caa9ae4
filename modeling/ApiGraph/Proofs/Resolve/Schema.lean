import ApiGraph.Proofs.Resolve.Run
import ApiGraph.Resolve.Schema

/-! What a successful resolution of a schema has done, part by part: which nodes it resolved under
which names, which names it gave away, and what it made of the results. -/

namespace ApiGraph

open Resolving

/-- The registry after the name of an embedded model was given away; a handle takes no name. -/
def Registry.claimed (r : Registry) : Link Model → Registry
  | .model m => (r.claim m.name).2
  | .ref _ => r

/-- The state after the name of an embedded model was given away. -/
def Progress.claimed (p : Progress) (link : Link Model) : Progress :=
  { p with registry := p.registry.claimed link }

/-- The branches of all combinations of a model. -/
def Model.branches (m : Model) : List (Link Model) :=
  m.allOf.getD [] ++ m.anyOf.getD [] ++ m.oneOf.getD []

/-- What a model depends on and combines. -/
def Model.inner (m : Model) : List (Link Model) := m.dependencies ++ m.branches

/-- What remains of a link without its model: a handle remains as it is. -/
def Link.inner : Link Model → List (Link Model)
  | .ref r => [.ref r]
  | .model m => m.inner

namespace Schema

variable {document node : Json} {self : Resolver} {scope : Scope} {site : Site} {p q : Progress}
  {name parent : String} {required : List String} {m m' : Model} {out : Outcome}
  {f : Field} {fs : List Field} {needs : List (Link Model)}

theorem requiredNames_runs {names : List String} (h : Runs (requiredNames node) p names q) :
    q = p := by
  unfold requiredNames at h
  split at h
  · rw [runs_ite] at h
    split at h
    · exact (runs_fail.1 h).elim
    · exact (runs_pure.1 h).2.symm
  · exact (runs_pure.1 h).2.symm

/-- A schema starts as a model without parts that has the name of its site. -/
theorem outline_runs (h : Runs (outline site node) p m q) :
    q = p ∧ m.name = site.name ∧ m.kind = .schema ∧ m.source = node ∧ m.dependencies = [] ∧
      m.fields = [] ∧ m.branches = [] := by
  simp only [outline, runs_bind, runs_fit, runs_pure] at h
  obtain ⟨_, _, ⟨_, rfl⟩, rfl, rfl⟩ := h
  exact ⟨rfl, rfl, rfl, rfl, rfl, rfl, rfl⟩

/-- A member is resolved under a free name, which is given away only afterwards. -/
theorem resolveMember_runs (h : Runs (resolveMember self scope name required node) p out q) :
    ∃ s, Runs (self ⟨scope, p.registry.freeName name, required, false, none⟩ node) p out s ∧
      q = s.claimed out.result := by
  simp only [resolveMember, runs_bind, runs_freeName] at h
  obtain ⟨_, _, ⟨rfl, rfl⟩, out', s, hs, h⟩ := h
  cases hr : out'.result with
  | ref r =>
    simp only [hr, runs_pure] at h
    obtain ⟨rfl, rfl⟩ := h
    exact ⟨_, hs, by rw [hr]; rfl⟩
  | model m =>
    simp only [hr, runs_bind, runs_claim, runs_pure] at h
    obtain ⟨-, _, rfl, rfl, rfl⟩ := h
    exact ⟨_, hs, by rw [hr]; rfl⟩

/-- The items of an array are taken over when they are primitive, and are a member otherwise. -/
theorem resolveArray_runs (h : Runs (resolveArray self site node m) p (m', needs) q) :
    ∃ items out s, (node.get "items").nonNull = some items ∧
      Runs (self ⟨site.scope.down ["items"], p.registry.freeName (m.name ++ "Items"), [], false,
        none⟩ items) p out s ∧
      ((∃ item, out.result = .model item ∧ isPrimitiveType item.type = true ∧ q = s ∧
        needs = out.needs ∧
        m' = { m with
          array := some true, type := item.type, subtype := item.subtype
          enum := if item.enum.isNull then m.enum else item.enum }) ∨
      ((∀ item, out.result = .model item → isPrimitiveType item.type = false) ∧
        q = s.claimed out.result ∧ needs = out.needs ++ [out.result] ∧
        m' = { m with array := some true, type := some out.result.name })) := by
  unfold resolveArray at h
  split at h
  · exact (runs_malformed.1 h).elim
  next items hi =>
  simp only [runs_bind, runs_freeName] at h
  obtain ⟨_, _, ⟨rfl, rfl⟩, out, s, hs, h⟩ := h
  refine ⟨items, out, s, hi, hs, ?_⟩
  cases hr : out.result with
  | ref r =>
    simp only [hr, runs_pure, Prod.mk.injEq] at h
    obtain ⟨⟨rfl, rfl⟩, rfl⟩ := h
    exact Or.inr ⟨fun _ hm => (by cases hm), rfl, rfl, rfl⟩
  | model item =>
    simp only [hr, runs_ite, runs_bind, runs_claim, runs_pure, Prod.mk.injEq] at h
    split at h
    · next hp =>
      obtain ⟨⟨rfl, rfl⟩, rfl⟩ := h
      exact Or.inl ⟨item, rfl, hp, rfl, rfl, rfl⟩
    · next hp =>
      obtain ⟨-, _, rfl, ⟨rfl, rfl⟩, rfl⟩ := h
      exact Or.inr ⟨fun _ hm => (by cases hm; simpa using hp), rfl, rfl, rfl⟩

/-- Only a schema for the values of a map is resolved, as a member. -/
theorem resolveMapValues_runs (h : Runs (resolveMapValues self site node m) p (m', needs) q) :
    (∃ out, Runs (resolveMember self (site.scope.down ["additionalProperties"])
        (site.name ++ "Extras") [] (node.get "additionalProperties")) p out q ∧
      (node.get "additionalProperties").isObject = true ∧ needs = out.needs ++ [out.result] ∧
      m' = { m with extras := Dict.put m.extras "additionalProperties" (.str out.result.name) }) ∨
    (q = p ∧ needs = [] ∧
      ((node.get "additionalProperties" = .bool true ∧
        m' = { m with extras := Dict.put m.extras "additionalProperties" (.bool true) }) ∨
      ((node.get "additionalProperties").isObject = false ∧ m' = m))) := by
  unfold resolveMapValues at h
  split at h
  · next hv =>
    simp only [runs_pure, Prod.mk.injEq] at h
    obtain ⟨⟨rfl, rfl⟩, rfl⟩ := h
    exact Or.inr ⟨rfl, rfl, Or.inl ⟨hv, rfl⟩⟩
  · next entries hv =>
    simp only [runs_bind, runs_pure, Prod.mk.injEq] at h
    obtain ⟨out, _, hs, ⟨rfl, rfl⟩, rfl⟩ := h
    exact Or.inl ⟨out, by rw [hv]; exact hs, by rw [hv]; rfl, rfl, rfl⟩
  · next ho =>
    simp only [runs_pure, Prod.mk.injEq] at h
    obtain ⟨⟨rfl, rfl⟩, rfl⟩ := h
    refine Or.inr ⟨rfl, rfl, Or.inr ⟨?_, rfl⟩⟩
    unfold Json.isObject
    split
    · next he => exact absurd he (ho _)
    · rfl

theorem outlineField_runs (h : Runs (outlineField name node) p f q) :
    q = p ∧ f.name = name ∧ f.kind = .schema ∧ f.type = (declaredType node).1 ∧ f.array = none := by
  simp only [outlineField, runs_bind, runs_fit, runs_pure] at h
  obtain ⟨_, _, ⟨_, rfl⟩, rfl, rfl⟩ := h
  exact ⟨rfl, rfl, rfl, rfl, rfl⟩

/-- The name that the member of a property is wanted under. -/
def memberName (parent property : String) : String :=
  String.ofList (Naming.nested parent.toList property.toList)

/-- A property refers to a model, takes over primitive items, embeds a member or has a type. -/
theorem resolveFieldType_runs {g : Field}
    (h : Runs (resolveFieldType document self scope parent node f) p (g, needs) q) :
    (∃ ref, node.has "$ref" = true ∧ Runs (resolveReference document self scope node) p ref q ∧
      g = { f with type := some ref.name, subtype := .str "object", kind := ref.kind } ∧
      needs = [.ref ref]) ∨
    (node.has "$ref" = false ∧ q = p ∧ needs = [] ∧ f.type = some "array" ∧
      isPrimitive (node.get "items") = true ∧
      g = { f with
        type := (declaredType (node.get "items")).1
        subtype := (node.get "items").get "format"
        enum := if (node.get "items").has "enum" && !node.has "enum" then
          (node.get "items").get "enum" else f.enum }) ∨
    (∃ target out, node.has "$ref" = false ∧
      ((f.type = some "array" ∧ isPrimitive (node.get "items") = false ∧
        (node.get "items").nonNull = some target) ∨
        (f.type ≠ some "array" ∧ (f.type = some "object" ∨ f.type = none) ∧ target = node)) ∧
      Runs (resolveMember self scope (memberName parent f.name) [] target) p out q ∧
      g = { f with
        type := some out.result.name, kind := out.result.kind, subtype := .str "object" } ∧
      needs = out.needs ++ [out.result]) ∨
    (node.has "$ref" = false ∧ q = p ∧ needs = [] ∧ f.type ≠ some "array" ∧
      f.type ≠ some "object" ∧ f.type ≠ none ∧ g = f) := by
  unfold resolveFieldType at h
  rw [runs_ite] at h
  split at h
  · next hr =>
    simp only [runs_bind, runs_pure, Prod.mk.injEq] at h
    obtain ⟨ref, _, hs, ⟨rfl, rfl⟩, rfl⟩ := h
    exact Or.inl ⟨ref, hr, hs, rfl, rfl⟩
  next hr =>
  have hr : node.has "$ref" = false := by simpa using hr
  rw [runs_ite] at h
  split at h
  · next ha =>
    simp only [Bool.and_eq_true, decide_eq_true_eq] at ha
    simp only [runs_pure, Prod.mk.injEq] at h
    obtain ⟨⟨rfl, rfl⟩, rfl⟩ := h
    exact Or.inr (Or.inl ⟨hr, rfl, rfl, ha.1, ha.2, rfl⟩)
  next ha =>
  rw [runs_ite] at h
  split at h
  · next ht =>
    split at h
    · exact (runs_malformed.1 h).elim
    next target hm =>
    simp only [runs_bind, runs_pure, Prod.mk.injEq] at h
    obtain ⟨out, _, hs, ⟨rfl, rfl⟩, rfl⟩ := h
    refine Or.inr (Or.inr (Or.inl ⟨target, out, hr, ?_, hs, rfl, rfl⟩))
    by_cases hf : f.type = some "array"
    · simp only [hf, if_true] at hm
      exact Or.inl ⟨hf, by simpa [hf] using ha, hm⟩
    · simp only [hf, if_false, Option.some.injEq] at hm
      exact Or.inr ⟨hf, by simpa [hf] using ht, hm.symm⟩
  · next ht =>
    simp only [runs_pure, Prod.mk.injEq] at h
    obtain ⟨⟨rfl, rfl⟩, rfl⟩ := h
    simp only [Bool.or_eq_true, decide_eq_true_eq, not_or, Option.isNone_iff_eq_none] at ht
    exact Or.inr (Or.inr (Or.inr ⟨hr, rfl, rfl, ht.1.1, ht.1.2, ht.2, rfl⟩))

theorem resolveField_runs
    (h : Runs (resolveField document self scope parent required name node) p (f, needs) q) :
    node.isObject = true ∧ ∃ start g, Runs (outlineField name node) p start p ∧
      Runs (resolveFieldType document self scope parent node start) p (g, needs) q ∧
      f.name = g.name ∧ f.type = g.type ∧ f.kind = g.kind ∧ f.subtype = g.subtype ∧
      f.required = required.contains name ∧
      f.array = (if (declaredType node).1 = some "array" then some true else g.array) ∧
      f.enum = (if node.has "enum" then node.get "enum" else g.enum) := by
  unfold resolveField at h
  simp only [runs_ite, runs_bind, runs_malformed, runs_pure, Prod.mk.injEq] at h
  split at h
  · obtain ⟨_, _, hf, -⟩ := h
    exact hf.elim
  · next ho =>
    obtain ⟨start, s, hs, ⟨g, needs'⟩, _, hg, ⟨rfl, rfl⟩, rfl⟩ := h
    obtain ⟨rfl, -⟩ := outlineField_runs hs
    exact ⟨by simpa using ho, start, g, hs, hg, rfl, rfl, rfl, rfl, rfl, rfl, rfl⟩

/-- The fields of a non-empty list of properties: the first one, then those of the others. -/
theorem resolveFields_runs {entry : String × Json} {rest : List (String × Json)}
    (h : Runs (resolveFields document self scope parent required (entry :: rest)) p (fs, needs) q) :
    ∃ f gs hd tl s,
      Runs (resolveField document self (scope.down ["properties", entry.1]) parent required entry.1
        entry.2) p (f, hd) s ∧
      Runs (resolveFields document self scope parent required rest) s (gs, tl) q ∧
      fs = f :: gs ∧ needs = hd ++ tl := by
  unfold resolveFields at h
  simp only [runs_bind, runs_pure, Prod.mk.injEq] at h
  obtain ⟨⟨f, hd⟩, s, hf, ⟨gs, tl⟩, _, hr, ⟨rfl, rfl⟩, rfl⟩ := h
  exact ⟨f, gs, hd, tl, s, hf, hr, rfl, rfl⟩

theorem resolveProperties_runs
    (h : Runs (resolveProperties document self site required node m) p (fs, needs) q) :
    (q = p ∧ fs = [] ∧ needs = [] ∧ (node.get "properties").truthy = false) ∨
    ∃ entries, node.get "properties" = .obj entries ∧
      Runs (resolveFields document self site.scope m.name required entries) p (fs, needs) q := by
  unfold resolveProperties at h
  simp only [runs_ite, runs_pure, Prod.mk.injEq] at h
  split at h
  · next ht =>
    obtain ⟨⟨rfl, rfl⟩, rfl⟩ := h
    exact Or.inl ⟨rfl, rfl, rfl, by simpa using ht⟩
  · split at h
    · next entries he => exact Or.inr ⟨entries, he, h⟩
    · exact (runs_malformed.1 h).elim

/-- What a branch passes on to the owner beside what is embedded in the branches. -/
def Outcome.passedOn (out : Outcome) : List (Link Model) :=
  match out.result with
  | .ref _ => out.needs ++ [out.result]
  | .model _ => out.needs

theorem resolveBranches_runs {key : String} {i : Nat} {branch : Json} {rest : List Json}
    {links : List (Link Model)}
    (h : Runs (resolveBranches self scope key name required i (branch :: rest)) p (links, needs) q) :
    ∃ out more tl s,
      Runs (resolveMember self (scope.down [key, toString i]) (name ++ toString i) required branch) p
        out s ∧
      Runs (resolveBranches self scope key name required (i + 1) rest) s (more, tl) q ∧
      links = out.result :: more ∧ needs = Outcome.passedOn out ++ tl := by
  unfold resolveBranches at h
  simp only [runs_bind, runs_pure, Prod.mk.injEq] at h
  obtain ⟨out, s, ho, ⟨more, tl⟩, _, hr, ⟨rfl, rfl⟩, rfl⟩ := h
  exact ⟨out, more, tl, s, ho, hr, rfl, rfl⟩

theorem resolveCombinator_runs {key label : String} {links : Option (List (Link Model))}
    (h : Runs (resolveCombinator self site required node m key label) p (links, needs) q) :
    (q = p ∧ links = none ∧ needs = [] ∧ node.get key = .null) ∨
    ∃ items branches, node.get key = .arr items ∧
      Runs (resolveBranches self site.scope key (m.name ++ label) required 0 items) p
        (branches, needs) q ∧
      links = some branches := by
  unfold resolveCombinator at h
  split at h
  · next hk =>
    simp only [runs_pure, Prod.mk.injEq] at h
    obtain ⟨⟨rfl, rfl⟩, rfl⟩ := h
    exact Or.inl ⟨rfl, rfl, rfl, hk⟩
  · next items hk =>
    simp only [runs_bind, runs_pure, Prod.mk.injEq] at h
    obtain ⟨⟨branches, needs'⟩, _, hb, ⟨rfl, rfl⟩, rfl⟩ := h
    exact Or.inr ⟨items, branches, hk, hb, rfl⟩
  · exact (runs_malformed.1 h).elim

/-- A composite schema has its properties resolved first, then its combinations one by one. -/
theorem resolveComposite_runs
    (h : Runs (resolveComposite document self site node m) p (m', needs) q) :
    ∃ names fs allOf anyOf oneOf n₀ n₁ n₂ n₃ p₁ p₂ p₃,
      Runs (requiredNames node) p names p ∧
      Runs (resolveProperties document self site (site.required ++ names) node m) p (fs, n₀) p₁ ∧
      Runs (resolveCombinator self site (site.required ++ names) node m "allOf" "AllOf") p₁
        (allOf, n₁) p₂ ∧
      Runs (resolveCombinator self site (site.required ++ names) node m "anyOf" "AnyOf") p₂
        (anyOf, n₂) p₃ ∧
      Runs (resolveCombinator self site (site.required ++ names) node m "oneOf" "OneOf") p₃
        (oneOf, n₃) q ∧
      m' = { m with fields := fs, allOf := allOf, anyOf := anyOf, oneOf := oneOf } ∧
      needs = n₀ ++ n₁ ++ n₂ ++ n₃ := by
  unfold resolveComposite at h
  simp only [runs_bind, runs_pure, Prod.mk.injEq] at h
  obtain ⟨names, s, hn, ⟨fs, n₀⟩, p₁, h₀, ⟨allOf, n₁⟩, p₂, h₁, ⟨anyOf, n₂⟩, p₃, h₂, ⟨oneOf, n₃⟩, _, h₃,
    ⟨rfl, rfl⟩, rfl⟩ := h
  obtain rfl := requiredNames_runs hn
  exact ⟨names, fs, allOf, anyOf, oneOf, n₀, n₁, n₂, n₃, p₁, p₂, p₃, hn, h₀, h₁, h₂, h₃, rfl, rfl⟩

/-- A plain schema says of what type a model is, and nothing of what it holds. -/
theorem resolvePlain_eq (node : Json) (m : Model) : ∃ type subtype enum,
    resolvePlain node m = { m with type, subtype, enum } ∧
      (m.type = none → ∀ {word}, type = some word → (declaredType node).1 = some word) := by
  unfold resolvePlain
  split
  · refine ⟨m.type, m.subtype, m.enum, by cases m; rfl, fun none _ h => ?_⟩
    cases none.symm.trans h
  · next declared hd =>
    refine ⟨_, _, _, rfl, fun none word h => ?_⟩
    split at h
    · rw [none] at h
      cases h
    · rw [hd, h]

theorem resolveParts_runs (h : Runs (resolveParts document self site node m) p (m', needs) q) :
    ((declaredType node).1 = some "array" ∧
      Runs (resolveArray self site node m) p (m', needs) q) ∨
    ((declaredType node).1 ≠ some "array" ∧ ∃ mid hd s,
      Runs (resolveMapValues self site node m) p (mid, hd) s ∧
      ((isComposite node = true ∧ ∃ tl,
          Runs (resolveComposite document self site node mid) s (m', tl) q ∧ needs = hd ++ tl) ∨
        (isComposite node = false ∧ q = s ∧ needs = hd ∧ m' = resolvePlain node mid))) := by
  unfold resolveParts at h
  rw [runs_ite] at h
  split at h
  · next ha => exact Or.inl ⟨ha, h⟩
  next ha =>
  simp only [runs_bind, runs_ite, runs_pure, Prod.mk.injEq] at h
  obtain ⟨⟨mid, hd⟩, s, hm, h⟩ := h
  refine Or.inr ⟨ha, mid, hd, s, hm, ?_⟩
  split at h
  · next hc =>
    obtain ⟨⟨m', tl⟩, _, hp, ⟨rfl, rfl⟩, rfl⟩ := h
    exact Or.inl ⟨hc, tl, hp, rfl⟩
  · next hc =>
    obtain ⟨⟨rfl, rfl⟩, rfl⟩ := h
    exact Or.inr ⟨by simpa using hc, rfl, rfl, rfl⟩

/-- A schema is answered from the contents that are registered, or its parts are resolved. -/
theorem resolve_runs (h : Runs (resolve document self site node) p out q) :
    (∃ ref, site.scope.space = .structural ∧ p.registry.findStructural node = some ref ∧ q = p ∧
      out = ⟨.ref ref, []⟩) ∨
    (∃ start m needs, Runs (outline site node) p start p ∧
      Runs (resolveParts document self site node start) p (m, needs) q ∧
      out = if site.owner then ⟨.model { m with dependencies := needs }, []⟩
        else ⟨.model m, needs⟩) := by
  unfold resolve at h
  simp only [runs_bind, runs_registry] at h
  obtain ⟨_, _, ⟨rfl, rfl⟩, h⟩ := h
  split at h
  · next ref hf =>
    obtain ⟨rfl, rfl⟩ := runs_pure.1 h
    split at hf
    · next hs => exact Or.inl ⟨ref, hs, hf, rfl, rfl⟩
    · cases hf
  · simp only [runs_bind, runs_ite, runs_pure] at h
    obtain ⟨start, s, hs, ⟨m, needs⟩, _, hp, h⟩ := h
    obtain ⟨rfl, -⟩ := outline_runs hs
    refine Or.inr ⟨start, m, needs, hs, ?_⟩
    split at h
    · next ho =>
      obtain ⟨rfl, rfl⟩ := h
      exact ⟨hp, by rw [if_pos ho]⟩
    · next ho =>
      obtain ⟨rfl, rfl⟩ := h
      exact ⟨hp, by rw [if_neg ho]⟩

end Schema

end ApiGraph
