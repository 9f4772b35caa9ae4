import ApiGraph.Proofs.Resolve.Schema
import ApiGraph.Proofs.Schema.Form
import ApiGraph.Resolve.Node

/-! What a successful resolution of a node of any form has done: references, parameters, headers,
components with headers, and security schemes. -/

namespace ApiGraph

open Resolving

variable {document node : Json} {self : Resolver} {scope : Scope} {site : Site} {p q : Progress}
  {name given : String} {m : Model} {ref : Ref} {out : Outcome}

/-- A followed reference reserves a name, resolves its target under it, and either registers the
model or lets the reference stand for what the target itself refers to. -/
theorem followReference_runs {text : String}
    (h : Runs (followReference document self scope text) p ref q) :
    ∃ target reserved r out s, Pointer.resolve document text = some target ∧
      p.registry.reserve text (pointerName text) = (reserved, r) ∧
      Runs (self (.ofOwner (scope.relocated (Pointer.segments text)) reserved.name) target)
        { p with registry := r } out s ∧
      ((out.result = .ref ref ∧
        q = if ref.isRemote then s else
          { s with registry := s.registry.redirect text ref.name }) ∨
      (∃ m found t, out.result = .model m ∧
        s.registry.assert target (.model m) (some text) .named scope.location = .ok (found, t) ∧
        ref = found.ref ∧ q = { s with registry := t })) := by
  unfold followReference at h
  split at h
  · exact (runs_fail.1 h).elim
  next target ht =>
  simp only [runs_bind, runs_registry, runs_setRegistry] at h
  obtain ⟨_, _, ⟨rfl, rfl⟩, -, _, rfl, out, s, hs, h⟩ := h
  refine ⟨target, _, _, out, s, ht, rfl, hs, ?_⟩
  cases hr : out.result with
  | ref found =>
    simp only [hr, runs_ite, runs_bind, runs_registry, runs_setRegistry, runs_pure] at h
    split at h
    · next hl =>
      obtain ⟨_, _, ⟨rfl, rfl⟩, -, _, rfl, rfl, rfl⟩ := h
      exact Or.inl ⟨rfl, by rw [if_neg (by simpa using hl)]⟩
    · next hl =>
      obtain ⟨rfl, rfl⟩ := h
      exact Or.inl ⟨rfl, by rw [if_pos (by simpa using hl)]⟩
  | model m =>
    simp only [hr, runs_bind, runs_assert, runs_pure] at h
    obtain ⟨found, _, ⟨t, ha, rfl⟩, rfl, rfl⟩ := h
    exact Or.inr ⟨m, found, t, rfl, ha, rfl, rfl⟩

/-- A reference leads out of the document, is known, or is followed. -/
theorem resolveReference_runs (h : Runs (resolveReference document self scope node) p ref q) :
    ∃ text, node.get? "$ref" = some (.str text) ∧
      ((Pointer.isLocal text = false ∧ ref = .remote text ∧ q = p) ∨
      (Pointer.isLocal text = true ∧ p.registry.lookupRef text = some ref ∧ q = p) ∨
      (Pointer.isLocal text = true ∧ p.registry.lookupRef text = none ∧
        Runs (followReference document self scope text) p ref q)) := by
  unfold resolveReference at h
  split at h
  · next text hn =>
    refine ⟨text, hn, ?_⟩
    simp only [runs_ite, runs_pure] at h
    split at h
    · next hl =>
      obtain ⟨rfl, rfl⟩ := h
      exact Or.inl ⟨by simpa using hl, rfl, rfl⟩
    · next hl =>
      have hl : Pointer.isLocal text = true := by simpa using hl
      simp only [runs_bind, runs_registry] at h
      obtain ⟨_, _, ⟨rfl, rfl⟩, h⟩ := h
      split at h
      · next known hk =>
        obtain ⟨rfl, rfl⟩ := runs_pure.1 h
        exact Or.inr (Or.inl ⟨hl, hk, rfl⟩)
      · next hk => exact Or.inr (Or.inr ⟨hl, hk, h⟩)
  · exact (runs_malformed.1 h).elim
  · exact (runs_fail.1 h).elim

theorem securitySchemeName_runs {type : Json} {s : String}
    (h : Runs (securitySchemeName given type) p s q) :
    q = p ∧ (given ≠ "" → s = given) ∧ s ≠ "" := by
  unfold securitySchemeName at h
  rw [runs_ite] at h
  split at h
  · next hg =>
    obtain ⟨rfl, rfl⟩ := runs_pure.1 h
    exact ⟨rfl, fun _ => rfl, by simpa using hg⟩
  · next hg =>
    have hg : given = "" := by simpa using hg
    split at h
    · obtain ⟨rfl, rfl⟩ := runs_pure.1 h
      refine ⟨rfl, fun hn => absurd hg hn, fun he => ?_⟩
      exact absurd (String.append_eq_empty_iff.1 he).1 (by decide)
    · exact (runs_fail.1 h).elim
    · exact (runs_fail.1 h).elim

/-- A security scheme becomes a model with a name, the type that the node declares, if that is a
word, and a description. -/
theorem resolveSecurityScheme_cases (h : Runs (resolveSecurityScheme scope given node) p m q) :
    ∃ name description, Runs (securitySchemeName given (node.get "type")) p name q ∧
      m = { Model.blank name .securityScheme with
        source := node
        location := some (scope.located name)
        type := (node.get "type").text?
        description := description } := by
  unfold resolveSecurityScheme at h
  split at h
  · exact (runs_fail.1 h).elim
  next declared hd =>
  rw [Json.get, hd, Option.getD_some]
  simp only [runs_bind, runs_fit, runs_pure] at h
  obtain ⟨name, _, hn, ⟨type, description⟩, _, ⟨fits, rfl⟩, rfl, rfl⟩ := h
  have typed : type = declared.text? := by
    generalize descriptionOf node = described at fits
    cases declared <;> cases described <;> cases fits <;> rfl
  exact ⟨name, description, hn, by rw [typed]⟩

/-- A security scheme becomes a model without parts. -/
theorem resolveSecurityScheme_runs (h : Runs (resolveSecurityScheme scope given node) p m q) :
    q = p ∧ (given ≠ "" → m.name = given) ∧ m.name ≠ "" ∧ m.kind = .securityScheme ∧
      m.source = node ∧ m.dependencies = [] ∧ m.fields = [] ∧ m.branches = [] := by
  obtain ⟨name, description, hn, rfl⟩ := resolveSecurityScheme_cases h
  obtain ⟨rfl, hg, hne⟩ := securitySchemeName_runs hn
  exact ⟨rfl, hg, hne, rfl, rfl, rfl, rfl, rfl⟩

theorem membersOf_runs {v : Json} {entries : List (String × Json)}
    (h : Runs (membersOf v) p entries q) : q = p ∧ v = .obj entries := by
  unfold membersOf at h
  split at h
  · obtain ⟨rfl, rfl⟩ := runs_pure.1 h
    exact ⟨rfl, rfl⟩
  · exact (runs_fail.1 h).elim

namespace Parameter

theorem mediaOf_runs {media : List Json} (h : Runs (mediaOf node) p media q) : q = p := by
  simp only [mediaOf, runs_ite, runs_bind, runs_pure] at h
  split at h
  · obtain ⟨entries, _, he, -, rfl⟩ := h
    exact (membersOf_runs he).1
  · exact h.2.symm

/-- The schema of a parameter is an object that stands in the parameter. -/
theorem schemaOf_runs {schema : Option Json} (h : Runs (schemaOf node) p schema q) :
    q = p ∧ ∀ v, schema = some v → v.isObject = true := by
  simp only [schemaOf, runs_ite, runs_bind, runs_fail] at h
  split at h
  · obtain ⟨_, _, hf, -⟩ := h
    exact hf.elim
  split at h
  · obtain ⟨rfl, rfl⟩ := runs_pure.1 h
    exact ⟨rfl, fun v hv => by cases hv; rfl⟩
  · simp only [runs_bind, runs_pure] at h
    obtain ⟨media, _, hm, rfl, rfl⟩ := h
    exact ⟨mediaOf_runs hm, fun v hv => List.find?_some hv⟩

/-- The place of a parameter is the one that its word names. -/
theorem placeOf_found {place : ParameterPlace} (h : Runs (placeOf scope node) p place q) :
    q = p ∧ node.isObject = true ∧
      (node.get "in").text?.bind ParameterPlace.ofWord? = some place := by
  simp only [placeOf, runs_ite, runs_bind, runs_fail] at h
  split at h
  · obtain ⟨_, _, hf, -⟩ := h
    exact hf.elim
  next object =>
  split at h
  · next found hf =>
    obtain ⟨rfl, rfl⟩ := runs_pure.1 h
    exact ⟨rfl, by simpa using object, hf⟩
  · exact (runs_malformed.1 h).elim

theorem placeOf_runs {place : ParameterPlace} (h : Runs (placeOf scope node) p place q) :
    q = p := (placeOf_found h).1

theorem parameter_ne_nil (place : ParameterPlace) (declared : List Char) :
    Naming.parameter place.word.toList declared ≠ [] := by
  have hw (c d : Char) (rest : List Char) (hs : Text.isWord c = true)
      (ht : Text.isWord c.toUpper = true) :
      Text.keepWords (Naming.humps (' ' :: c :: rest)) ≠ [] := by
    simp [Naming.humps, Naming.isSeparator, Text.isAsciiBlank, hs, Text.keepWords, ht]
  cases place <;> exact hw _ ' ' _ (by decide) (by decide)

theorem nameFor_runs {place : ParameterPlace} (h : Runs (nameFor given place node) p name q) :
    q = p ∧ (given ≠ "" → name = given) ∧ name ≠ "" := by
  simp only [nameFor, runs_ite, runs_pure] at h
  split at h
  · next hg => exact ⟨h.2.symm, fun _ => h.1, h.1 ▸ by simpa using hg⟩
  · next hg =>
    have hg : given = "" := by simpa using hg
    split at h
    · obtain ⟨rfl, rfl⟩ := runs_pure.1 h
      exact ⟨rfl, fun hn => absurd hg hn, fun he =>
        parameter_ne_nil place _ (String.ofList_eq_empty_iff.1 he)⟩
    · exact (runs_fail.1 h).elim

/-- The values of a parameter come from nothing, from a handle, from a model that is registered by
the content of the schema, or from a model that is taken over. -/
theorem resolveValues_runs {schema : Option Json} {m' : Model}
    (h : Runs (resolveValues self scope schema m) p m' q) :
    (schema = none ∧ q = p ∧ m' = m) ∨
    ∃ v out s, schema = some v ∧ Runs (self (.ofOwner scope (m.name ++ "Schema")) v) p out s ∧
      ((∃ ref, out.result = .ref ref ∧ q = s ∧ m' = refersTo m ref) ∨
      (∃ parsed found t, out.result = .model parsed ∧ isObjectShaped parsed = true ∧
        s.registry.assert v (.model parsed) none .structural scope.location = .ok (found, t) ∧
        q = { s with registry := t } ∧ m' = refersTo m found.ref) ∨
      (∃ parsed, out.result = .model parsed ∧ isObjectShaped parsed = false ∧ q = s ∧
        m' = takesOver m parsed)) := by
  unfold resolveValues at h
  split at h
  · obtain ⟨rfl, rfl⟩ := runs_pure.1 h
    exact Or.inl ⟨rfl, rfl, rfl⟩
  next v =>
  simp only [runs_bind] at h
  obtain ⟨out, s, hs, h⟩ := h
  refine Or.inr ⟨v, out, s, rfl, hs, ?_⟩
  cases hr : out.result with
  | ref ref =>
    simp only [hr, runs_pure] at h
    obtain ⟨rfl, rfl⟩ := h
    exact Or.inl ⟨ref, rfl, rfl, rfl⟩
  | model parsed =>
    simp only [hr, runs_ite, runs_bind, runs_assertContent, runs_pure] at h
    split at h
    · next ho =>
      obtain ⟨found, _, ⟨t, ha, rfl⟩, rfl, rfl⟩ := h
      exact Or.inr (Or.inl ⟨parsed, found, t, rfl, ho, ha, rfl, rfl⟩)
    · next ho =>
      obtain ⟨rfl, rfl⟩ := h
      exact Or.inr (Or.inr ⟨parsed, rfl, by simpa using ho, rfl, rfl⟩)

/-- A parameter starts as a model with a name for its place, and gets its values from its schema. -/
theorem resolve_cases {m' : Model} (h : Runs (resolve self scope given node) p m' q) :
    ∃ place name description schema mid, Runs (nameFor given place node) p name p ∧
      Runs (schemaOf node) p schema p ∧
      Runs (resolveValues self scope schema { Model.blank name place.kind with
        source := node
        location := some (scope.located name)
        description := description }) p mid q ∧
      (m' = mid ∨ m' = { mid with
        validations := Dict.put mid.validations "required" (.bool true) }) := by
  simp only [resolve, runs_bind, runs_fit, runs_ite, runs_pure] at h
  obtain ⟨place, _, hp, name, _, hn, description, _, ⟨_, rfl⟩, schema, _, hs, mid, _, hv, h⟩ := h
  obtain rfl := placeOf_runs hp
  obtain ⟨rfl, -, -⟩ := nameFor_runs hn
  obtain ⟨rfl, -⟩ := schemaOf_runs hs
  refine ⟨place, name, description, schema, mid, hn, hs, ?_⟩
  split at h <;> obtain ⟨rfl, rfl⟩ := h
  · exact ⟨hv, Or.inr rfl⟩
  · exact ⟨hv, Or.inl rfl⟩

/-- A parameter starts as a model without parts that has the given name, if there is one. -/
theorem resolve_runs {m' : Model} (h : Runs (resolve self scope given node) p m' q) :
    ∃ m schema mid, (given ≠ "" → m.name = given) ∧ m.name ≠ "" ∧
      (∃ place : ParameterPlace, m.kind = place.kind) ∧ m.source = node ∧ m.dependencies = [] ∧
      m.fields = [] ∧ m.branches = [] ∧ m.validations = [] ∧
      Runs (schemaOf node) p schema p ∧ Runs (resolveValues self scope schema m) p mid q ∧
      (m' = mid ∨ m' = { mid with
        validations := Dict.put mid.validations "required" (.bool true) }) := by
  obtain ⟨place, name, description, schema, mid, hn, hs, hv, hm⟩ := resolve_cases h
  obtain ⟨-, hg, hne⟩ := nameFor_runs hn
  exact ⟨_, schema, mid, hg, hne, ⟨place, rfl⟩, rfl, rfl, rfl, rfl, rfl, hs, hv, hm⟩

end Parameter

namespace Header

/-- A header is a reference, or a parameter that is registered by its content. -/
theorem resolve_runs (h : Runs (resolve document self scope name node) p ref q) :
    (node.has "$ref" = true ∧ Runs (resolveReference document self scope node) p ref q) ∨
    ∃ entries m s found t, node = .obj entries ∧ node.has "$ref" = false ∧
      Runs (Parameter.resolve self scope "" (asParameter name entries)) p m s ∧
      s.registry.assert (asParameter name entries) (.model m) none .structural scope.location =
        .ok (found, t) ∧
      ref = found.ref ∧ q = { s with registry := t } := by
  unfold resolve at h
  split at h
  · next entries =>
    rw [runs_ite] at h
    split at h
    · next hr => exact Or.inl ⟨hr, h⟩
    · next hr =>
      simp only [runs_bind, runs_assertContent, runs_pure] at h
      obtain ⟨m, s, hm, found, _, ⟨t, ha, rfl⟩, rfl, rfl⟩ := h
      exact Or.inr ⟨entries, m, s, found, t, rfl, by simpa using hr, hm, ha, rfl, rfl⟩
  · exact (runs_malformed.1 h).elim

theorem resolveEach_runs {entry : String × Json} {rest : List (String × Json)}
    {headers : Dict String Ref}
    (h : Runs (resolveEach document self scope (entry :: rest)) p headers q) :
    ∃ ref more s,
      Runs (resolve document self (scope.down ["headers", entry.1]) entry.1 entry.2) p ref s ∧
      Runs (resolveEach document self scope rest) s more q ∧
      headers = (entry.1, ref) :: more := by
  unfold resolveEach at h
  simp only [runs_bind, runs_pure] at h
  obtain ⟨ref, s, hr, more, _, hm, rfl, rfl⟩ := h
  exact ⟨ref, more, s, hr, hm, rfl⟩

theorem resolveAll_runs {v : Json} {headers : Dict String Ref}
    (h : Runs (resolveAll document self scope v) p headers q) :
    (q = p ∧ headers = []) ∨
      ∃ entries, v = .obj entries ∧ Runs (resolveEach document self scope entries) p headers q := by
  unfold resolveAll at h
  simp only [runs_ite, runs_pure] at h
  split at h
  · obtain ⟨rfl, rfl⟩ := h
    exact Or.inl ⟨rfl, rfl⟩
  · split at h
    · exact Or.inr ⟨_, rfl, h⟩
    · exact (runs_malformed.1 h).elim

/-- A declared response or request body becomes a model without parts. -/
theorem resolveHolder_runs {kind : Kind}
    (h : Runs (resolveHolder document self scope kind name node) p m q) :
    ∃ headers, Runs (resolveAll document self (scope.down [name]) (node.get "headers")) p headers q ∧
      m.name = name ∧ m.kind = kind ∧ m.source = node ∧ m.dependencies = [] ∧ m.fields = [] ∧
      m.branches = [] ∧ m.extras = if headers.isEmpty then []
        else [("headers", .obj (headers.map fun p => (p.1, .str p.2.name)))] := by
  simp only [resolveHolder, runs_bind, runs_fit, runs_pure] at h
  obtain ⟨_, _, ⟨_, rfl⟩, headers, _, hh, rfl, rfl⟩ := h
  exact ⟨headers, hh, rfl, rfl, rfl, rfl, rfl, rfl, rfl⟩

end Header

/-- A node of any form is an object and is resolved by its form. -/
theorem resolveForm_runs (h : Runs (resolveForm document self site node) p out q) :
    node.isObject = true ∧
    ((Schema.formOf node site.hint = .reference ∧ ∃ ref,
        Runs (resolveReference document self site.scope node) p ref q ∧ out = ⟨.ref ref, []⟩) ∨
      (Schema.formOf node site.hint = .securityScheme ∧ ∃ m,
        Runs (resolveSecurityScheme site.scope site.name node) p m q ∧ out = .own m) ∨
      (Schema.formOf node site.hint = .parameter ∧ ∃ m,
        Runs (Parameter.resolve self site.scope site.name node) p m q ∧ out = .own m) ∨
      ((site.hint = some .response ∨ site.hint = some .requestBody) ∧ ∃ kind m,
        (kind = .response ∨ kind = .requestBody) ∧
          Runs (Header.resolveHolder document self site.scope kind site.name node) p m q ∧
          out = .own m) ∨
      (Schema.formOf node site.hint = .schema ∧
        Runs (Schema.resolve document self site node) p out q)) := by
  simp only [resolveForm, runs_ite, runs_bind, runs_malformed] at h
  split at h
  · obtain ⟨_, _, hf, -⟩ := h
    exact hf.elim
  next ho =>
  refine ⟨by simpa using ho, ?_⟩
  split at h
  · next hform =>
    simp only [runs_bind, runs_pure] at h
    obtain ⟨ref, _, hr, rfl, rfl⟩ := h
    exact Or.inl ⟨hform, ref, hr, rfl⟩
  · next hform =>
    simp only [runs_bind, runs_pure] at h
    obtain ⟨m, _, hr, rfl, rfl⟩ := h
    exact Or.inr (Or.inl ⟨hform, m, hr, rfl⟩)
  · next hform =>
    simp only [runs_bind, runs_pure] at h
    obtain ⟨m, _, hr, rfl, rfl⟩ := h
    exact Or.inr (Or.inr (Or.inl ⟨hform, m, hr, rfl⟩))
  · next hform =>
    simp only [runs_bind, runs_pure] at h
    obtain ⟨m, _, hr, rfl, rfl⟩ := h
    exact Or.inr (Or.inr (Or.inr (Or.inl
      ⟨Or.inl (Schema.hint_of_formOf (Or.inl rfl) hform), _, m, Or.inl rfl, hr, rfl⟩)))
  · next hform =>
    simp only [runs_bind, runs_pure] at h
    obtain ⟨m, _, hr, rfl, rfl⟩ := h
    exact Or.inr (Or.inr (Or.inr (Or.inl
      ⟨Or.inr (Schema.hint_of_formOf (Or.inr rfl) hform), _, m, Or.inr rfl, hr, rfl⟩)))
  · next hform => exact Or.inr (Or.inr (Or.inr (Or.inr ⟨hform, h⟩)))

/-- A node that has the form of a schema is resolved as one. -/
theorem resolveForm_schema (h : Runs (resolveForm document self site node) p out q)
    (form : Schema.formOf node site.hint = .schema) :
    Runs (Schema.resolve document self site node) p out q := by
  simp only [resolveForm, form, runs_ite, runs_bind, runs_malformed] at h
  split at h
  · obtain ⟨_, _, absurd, -⟩ := h
    exact absurd.elim
  · exact h

/-- A node of a document is resolved by its form, and its parts with one step less. -/
theorem resolveNode_runs (h : Runs (resolveNode document site node) p out q) :
    ∃ depth, Runs (resolveForm document (resolveWithin document depth) site node) p out q := by
  unfold resolveNode at h
  generalize depthBound document node = depth at h
  cases depth with
  | zero => exact (runs_fail.1 h).elim
  | succ depth => exact ⟨depth, h⟩

end ApiGraph
