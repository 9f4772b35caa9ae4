import ApiGraph.Proofs.Resolve.Node
import ApiGraph.Resolve.Walk
import Mathlib.Data.List.Forall2

/-! What a successful resolution of an operation has done: parameters, aggregates, responses and
request bodies. Nodes are resolved and registered by their content one after the other; all else
that happens leaves the registry alone. -/

namespace ApiGraph

open Resolving

variable {document node : Json} {self : Resolver} {scope : Scope} {p q : Progress} {name : String}

theorem Json.eq_of_nonNull {v w : Json} (h : v.nonNull = some w) : v = w := by
  cases v <;> simp_all [nonNull]

/-- The text of a value under a key, which is empty if there is none. -/
def Json.wordOf (v : Json) (key : String) : String := ((v.get? key).map shown).getD ""

theorem Json.get?_of_get {v w : Json} {key : String} (h : v.get key = w) (there : w ≠ .null) :
    v.get? key = some w := by
  unfold get at h
  cases hv : v.get? key with
  | none => exact absurd (by rw [← h, hv]; rfl) there
  | some u => rw [← h, hv]; rfl

theorem Json.get?_of_not_truthy {v : Json} {key : String} (h : v.truthy = false) :
    v.get? key = none := by
  cases v with
  | obj entries =>
    cases entries with
    | nil => rfl
    | cons _ _ => cases h
  | _ => rfl

/-- A field takes its name and whether it is required from the node that a model was made from, and
its values from the model. -/
structure Field.Of (m : Model) (f : Field) : Prop where
  name : f.name = ((m.source.get? "name").map Json.shown).getD m.name
  required : f.required = (m.source.get "required").truthy
  kind : f.kind = m.kind
  type : f.type = m.type
  array : f.array = m.array
  default : f.default = m.default
  description : f.description = m.description
  validations : f.validations = m.validations
  extras : f.extras = m.extras

theorem dereference_runs {v : Json} (h : Runs (dereference document scope node) p v q) :
    q = p ∧ followChain document p.registry scope.location (document.size + 2) node = .ok v := by
  simp only [dereference, runs_bind, runs_registry, runs_lift] at h
  obtain ⟨_, _, ⟨rfl, rfl⟩, h, rfl⟩ := h
  exact ⟨rfl, h⟩

theorem itemsOf_parts {v : Json} {items : List Json} (h : Runs (itemsOf v) p items q) :
    q = p ∧ v.parts? = some items := by
  unfold itemsOf at h
  split at h
  · next parts hv =>
    obtain ⟨rfl, rfl⟩ := runs_pure.1 h
    exact ⟨rfl, hv⟩
  · exact (runs_fail.1 h).elim

theorem itemsOf_runs {v : Json} {items : List Json} (h : Runs (itemsOf v) p items q) : q = p :=
  (itemsOf_parts h).1

/-- A loop that yields values changes nothing if no round of it does, and has a value for each
round. -/
theorem mapM_runs_each {f : α → Resolving β} (hf : ∀ a b p q, Runs (f a) p b q → q = p)
    {as : List α} {bs : List β} (h : Runs (as.mapM f) p bs q) :
    q = p ∧ List.Forall₂ (fun a b => Runs (f a) p b p) as bs := by
  induction as generalizing bs p with
  | nil =>
    obtain ⟨rfl, rfl⟩ := runs_pure.1 h
    exact ⟨rfl, .nil⟩
  | cons a as ih =>
    rw [List.mapM_cons] at h
    simp only [runs_bind, runs_pure] at h
    obtain ⟨b, s, hb, bs', _, hs, rfl, rfl⟩ := h
    obtain rfl := hf _ _ _ _ hb
    obtain ⟨rfl, each⟩ := ih hs
    exact ⟨rfl, .cons hb each⟩

theorem mapM_runs_same {f : α → Resolving β} (hf : ∀ a b p q, Runs (f a) p b q → q = p)
    {as : List α} {bs : List β} (h : Runs (as.mapM f) p bs q) : q = p := (mapM_runs_each hf h).1

/-- A loop that keeps some of its values keeps those with a round that says so. -/
theorem filterM_runs_each {f : α → Resolving Bool} (hf : ∀ a b p q, Runs (f a) p b q → q = p)
    {as bs : List α} (h : Runs (as.filterM f) p bs q) :
    q = p ∧ ∃ kept, List.Forall₂ (fun a b => Runs (f a) p b p) as kept ∧
      bs = ((as.zip kept).filter Prod.snd).map Prod.fst := by
  have aux : ∀ as acc bs p q, Runs (List.filterAuxM f as acc) p bs q →
      q = p ∧ ∃ kept, List.Forall₂ (fun a b => Runs (f a) p b p) as kept ∧
        bs = (((as.zip kept).filter Prod.snd).map Prod.fst).reverse ++ acc := by
    intro as
    induction as with
    | nil =>
      intro acc bs p q h
      obtain ⟨rfl, rfl⟩ := runs_pure.1 h
      exact ⟨rfl, [], .nil, rfl⟩
    | cons a as ih =>
      intro acc bs p q h
      rw [List.filterAuxM, runs_bind] at h
      obtain ⟨b, s, hb, hs⟩ := h
      obtain rfl := hf _ _ _ _ hb
      obtain ⟨rfl, kept, each, rfl⟩ := ih _ _ _ _ hs
      refine ⟨rfl, b :: kept, .cons hb each, ?_⟩
      cases b <;> simp
  rw [List.filterM, runs_bind] at h
  obtain ⟨bs', s, hs, h⟩ := h
  obtain ⟨rfl, rfl⟩ := runs_pure.1 h
  obtain ⟨rfl, kept, each, rfl⟩ := aux _ _ _ _ _ hs
  exact ⟨rfl, kept, each, by simp⟩

namespace Parameter

/-- A parameter is told apart by its reference, if that leads out of the document, and else by the
node that it stands for. -/
theorem identity_cases {id : String × String} (h : Runs (identity document scope node) p id q) :
    q = p ∧ ((∃ text, node.get? "$ref" = some (.str text) ∧ Pointer.isLocal text = false ∧
        id = (text, "")) ∨
      ∃ v, followChain document p.registry scope.location (document.size + 2) node = .ok v ∧
        id = (v.wordOf "name", v.wordOf "in")) := by
  have follow {id : String × String} (h : Runs (do
      let target ← dereference document scope node
      return (((target.get? "name").map Json.shown).getD "",
        ((target.get? "in").map Json.shown).getD "")) p id q) : q = p ∧
      ∃ v, followChain document p.registry scope.location (document.size + 2) node = .ok v ∧
        id = (v.wordOf "name", v.wordOf "in") := by
    simp only [runs_bind, runs_pure] at h
    obtain ⟨v, _, hd, rfl, rfl⟩ := h
    obtain ⟨rfl, hv⟩ := dereference_runs hd
    exact ⟨rfl, v, hv, rfl⟩
  unfold identity at h
  split at h
  · next text spells =>
    rw [runs_ite] at h
    split at h
    · exact (follow h).imp_right .inr
    · next outside =>
      obtain ⟨rfl, rfl⟩ := runs_pure.1 h
      exact ⟨rfl, .inl ⟨text, Json.get?_of_get spells (by simp), by simpa using outside, rfl⟩⟩
  · exact (follow h).imp_right .inr

theorem identity_runs {id : String × String} (h : Runs (identity document scope node) p id q) :
    q = p := (identity_cases h).1

/-- The parameters of a path that tell themselves apart from all those of the operation come first. -/
theorem merge_cases {pathParams opParams : Json} {params : List Json}
    (h : Runs (merge document scope pathParams opParams) p params q) :
    q = p ∧ ∃ inherited own is os, pathParams.parts? = some inherited ∧ opParams.parts? = some own ∧
      List.Forall₂ (fun node id => Runs (identity document scope node) p id p) inherited is ∧
      List.Forall₂ (fun node id => Runs (identity document scope node) p id p) own os ∧
      params = ((inherited.zip is).filter fun x => !os.contains x.2).map Prod.fst ++ own := by
  simp only [merge, runs_bind, runs_pure] at h
  obtain ⟨own, _, ho, os, _, hm, inherited, _, hi, kept, t, hk, rfl, rfl⟩ := h
  obtain ⟨rfl, ownParts⟩ := itemsOf_parts ho
  obtain ⟨rfl, ownTold⟩ := mapM_runs_each (fun _ _ _ _ => identity_runs) hm
  obtain ⟨rfl, inheritedParts⟩ := itemsOf_parts hi
  obtain ⟨rfl, flags, each, rfl⟩ := filterM_runs_each (fun a b p q h => by
    simp only [runs_bind, runs_pure] at h
    obtain ⟨_, _, hd, -, rfl⟩ := h
    exact identity_runs hd) hk
  suffices told : ∃ is, List.Forall₂ (fun node id => Runs (identity document scope node) t id t) inherited
      is ∧ flags = is.map (!os.contains ·) by
    obtain ⟨is, told, rfl⟩ := told
    refine ⟨rfl, inherited, own, is, os, inheritedParts, ownParts, told, ownTold, ?_⟩
    rw [List.zip_map_right, List.filter_map, List.map_map]
    rfl
  clear hi hk inheritedParts
  induction each with
  | nil => exact ⟨[], .nil, rfl⟩
  | cons first _ ih =>
    obtain ⟨is, told, rfl⟩ := ih
    simp only [runs_bind, runs_pure] at first
    obtain ⟨id, _, hd, rfl, rfl⟩ := first
    exact ⟨id :: is, .cons hd told, rfl⟩

theorem merge_runs {pathParams opParams : Json} {params : List Json}
    (h : Runs (merge document scope pathParams opParams) p params q) : q = p := (merge_cases h).1

/-- A parameter is resolved and registered by its content. One that leads out of the document leaves a
warning, and any other its handle in the group of the place that its model tells. -/
theorem resolveInto_cases {groups groups' : Groups}
    (h : Runs (resolveInto self scope groups node) p groups' q) :
    (node.isObject && !node.has "$ref" && !(node.has "name" && node.has "in")) = false ∧
    ∃ out s found t,
      Runs (self { Site.ofOwner scope "" with hint := some .parameter } node) p out s ∧
      s.registry.assert node out.result none .structural scope.location = .ok (found, t) ∧
      ((found.model = none ∧ groups' = groups ∧ q = { s with
          registry := t
          notices := s.notices ++
            [.warning s!"Skipping remote parameter '{found.ref.name}' at {scope.location}"] }) ∨
        ∃ m place, found.model = some m ∧ m.source.isObject = true ∧
          (m.source.get "in").text?.bind ParameterPlace.ofWord? = some place ∧
          groups' = groups.add place found.ref ∧ q = { s with registry := t }) := by
  simp only [resolveInto, runs_ite, runs_bind, runs_malformed] at h
  split at h
  · obtain ⟨_, _, hf, -⟩ := h
    exact hf.elim
  next hc =>
  refine ⟨by simpa using hc, ?_⟩
  simp only [runs_assertContent] at h
  obtain ⟨out, s, hs, found, _, ⟨t, ha, rfl⟩, h⟩ := h
  refine ⟨out, s, found, t, hs, ha, ?_⟩
  split at h
  · next hm =>
    simp only [runs_bind, runs_notify, runs_pure] at h
    obtain ⟨-, _, rfl, rfl, rfl⟩ := h
    exact Or.inl ⟨hm, rfl, rfl⟩
  · next m hm =>
    simp only [runs_bind, runs_pure] at h
    obtain ⟨place, _, hp, rfl, rfl⟩ := h
    obtain ⟨rfl, object, placed⟩ := placeOf_found hp
    exact Or.inr ⟨m, place, hm, object, placed, rfl, rfl⟩

theorem resolveInto_runs {groups groups' : Groups}
    (h : Runs (resolveInto self scope groups node) p groups' q) :
    (node.isObject && !node.has "$ref" && !(node.has "name" && node.has "in")) = false ∧
    ∃ out s found t,
      Runs (self { Site.ofOwner scope "" with hint := some .parameter } node) p out s ∧
      s.registry.assert node out.result none .structural scope.location = .ok (found, t) ∧
      q.registry = t ∧
      ((found.model = none ∧ groups' = groups) ∨
        ∃ m place, found.model = some m ∧ groups' = groups.add place found.ref) := by
  obtain ⟨declared, out, s, found, t, hs, ha, ⟨hm, hg, rfl⟩ | ⟨m, place, hm, -, -, hg, rfl⟩⟩ :=
    resolveInto_cases h
  · exact ⟨declared, out, s, found, t, hs, ha, rfl, Or.inl ⟨hm, hg⟩⟩
  · exact ⟨declared, out, s, found, t, hs, ha, rfl, Or.inr ⟨m, place, hm, hg⟩⟩

theorem resolveFrom_runs {i : Nat} {rest : List Json} {groups groups' : Groups}
    (h : Runs (resolveFrom self scope i (node :: rest) groups) p groups' q) :
    ∃ mid s, Runs (resolveInto self (scope.down ["parameters", toString i]) groups node) p mid s ∧
      Runs (resolveFrom self scope (i + 1) rest mid) s groups' q := by
  simpa only [resolveFrom, runs_bind] using h

theorem fieldOf_runs {m : Model} {f : Field} (h : Runs (fieldOf m) p f q) : q = p ∧ f.Of m := by
  have source (key : String) : (if m.source.truthy then m.source else .obj []).get? key =
      m.source.get? key := by
    split
    · rfl
    · next falsy => exact (Json.get?_of_not_truthy (by simpa using falsy)).symm
  simp only [fieldOf, runs_bind, runs_fit, runs_pure, Json.get, source] at h
  obtain ⟨schema, _, hs, _, _, ⟨-, rfl⟩, rfl, rfl⟩ := h
  obtain ⟨rfl, -⟩ := schemaOf_runs hs
  exact ⟨rfl, rfl, rfl, rfl, rfl, rfl, rfl, rfl, rfl, rfl⟩

/-- The models of some handles, in their order. -/
inductive Gathered (r : Registry) (location : String) : List Ref → List Model → Prop
  | nil : Gathered r location [] []
  | cons {ref : Ref} {rest : List Ref} {found : Resolved} {m : Model} {ms : List Model}
    (known : r.requireRef ref location = .ok found) (model : found.model = some m)
    (more : Gathered r location rest ms) : Gathered r location (ref :: rest) (m :: ms)

/-- There is a field for each handle, and what the fields depend on is what the models depend on. -/
theorem fieldsOf_runs {refs : List Ref} {fs : List Field} {needs : List (Link Model)}
    (h : Runs (fieldsOf scope refs) p (fs, needs) q) :
    q = p ∧ ∃ ms, Gathered p.registry scope.location refs ms ∧
      List.Forall₂ Field.Of ms fs ∧ needs = ms.flatMap Model.dependencies := by
  induction refs generalizing fs needs p with
  | nil =>
    simp only [fieldsOf, runs_pure, Prod.mk.injEq] at h
    obtain ⟨⟨rfl, rfl⟩, rfl⟩ := h
    exact ⟨rfl, [], .nil, .nil, rfl⟩
  | cons ref rest ih =>
    simp only [fieldsOf, runs_bind, runs_registry, runs_lift] at h
    obtain ⟨_, _, ⟨rfl, rfl⟩, found, _, ⟨hr, rfl⟩, h⟩ := h
    split at h
    · exact (runs_fail.1 h).elim
    · next m hm =>
      simp only [runs_bind, runs_pure, Prod.mk.injEq] at h
      obtain ⟨f, _, hf, ⟨fs', needs'⟩, _, hrest, ⟨rfl, rfl⟩, rfl⟩ := h
      obtain ⟨rfl, field⟩ := fieldOf_runs hf
      obtain ⟨rfl, ms, hms, fields, rfl⟩ := ih hrest
      exact ⟨rfl, m :: ms, .cons hr hm hms, .cons field fields, by simp⟩

/-- Gathered parameters become a model with a field for each of them, registered under its own name. -/
theorem gather_cases {refs : List Ref} {ref? : Option Ref}
    (h : Runs (gather scope refs name) p ref? q) :
    (refs = [] ∧ q = p ∧ ref? = none) ∨
    ∃ ms fs found t, refs ≠ [] ∧ Gathered p.registry scope.location refs ms ∧
      List.Forall₂ Field.Of ms fs ∧
      p.registry.assert .null (.model { Model.blank name .methodParam with
          fields := fs
          dependencies := ms.flatMap Model.dependencies }) (some name) .named scope.location =
        .ok (found, t) ∧
      ref? = some found.ref ∧ q = { p with registry := t } := by
  simp only [gather, runs_ite, runs_bind, runs_assert, runs_pure] at h
  split at h
  · next empty =>
    obtain ⟨rfl, rfl⟩ := h
    exact Or.inl ⟨List.isEmpty_iff.1 empty, rfl, rfl⟩
  · next full =>
    obtain ⟨⟨fs, needs⟩, _, hf, found, _, ⟨t, ha, rfl⟩, rfl, rfl⟩ := h
    obtain ⟨rfl, ms, hms, fields, rfl⟩ := fieldsOf_runs hf
    exact Or.inr ⟨ms, fs, found, t, by simpa using full, hms, fields, ha, rfl, rfl⟩

theorem gather_runs {refs : List Ref} {ref? : Option Ref}
    (h : Runs (gather scope refs name) p ref? q) :
    (q = p ∧ ref? = none) ∨
    ∃ ms m found t, Gathered p.registry scope.location refs ms ∧ m.name = name ∧
      m.kind = .methodParam ∧ m.source = .null ∧ m.dependencies = ms.flatMap Model.dependencies ∧
      m.branches = [] ∧
      p.registry.assert .null (.model m) (some name) .named scope.location = .ok (found, t) ∧
      ref? = some found.ref ∧ q = { p with registry := t } := by
  obtain ⟨-, rfl, rfl⟩ | ⟨ms, fs, found, t, -, hms, -, ha, rfl, rfl⟩ := gather_cases h
  · exact Or.inl ⟨rfl, rfl⟩
  · exact Or.inr ⟨ms, _, found, t, hms, rfl, rfl, rfl, rfl, rfl, ha, rfl, rfl⟩

end Parameter

namespace Payload

/-- A payload is nothing, primitive, or a schema that is registered by its content. -/
theorem resolveRegistered_runs {schema : Json} {array : Option Bool} {payload : Payload}
    (h : Runs (resolveRegistered self scope name schema array) p payload q) :
    ∃ out s found t, Runs (self (.ofOwner scope name) schema) p out s ∧
      s.registry.assert schema out.result .none .structural scope.location = .ok (found, t) ∧
      payload = ofRef found.ref array ∧ q = { s with registry := t } := by
  simp only [resolveRegistered, runs_bind, runs_assertContent, runs_pure] at h
  obtain ⟨out, s, hs, found, _, ⟨t, ha, rfl⟩, rfl, rfl⟩ := h
  exact ⟨out, s, found, t, hs, ha, rfl, rfl⟩

/-- Where the payload of a schema comes from: nothing is registered for a schema that is missing or
primitive, nor for an array of such items; an array is registered by its items, and all else by
itself. -/
inductive Origin (self : Resolver) (scope : Scope) (name : String) (schema : Json) (p : Progress) :
    Payload → Progress → Prop
  | missing (null : schema.isNull = true) : Origin self scope name schema p .none p
  | simple (primitive : Schema.isPrimitive schema = true) :
    Origin self scope name schema p (.primitive schema .none) p
  | simples (present : schema.isNull = false) (composed : Schema.isPrimitive schema = false)
    (array : (schema.isObject && !schema.has "$ref" &&
      (Schema.declaredType schema).1 = some "array") = true)
    (primitive : Schema.isPrimitive (schema.get "items") = true) :
    Origin self scope name schema p (.primitive (schema.get "items") (some true)) p
  | items {payload : Payload} {q : Progress} (present : schema.isNull = false)
    (composed : Schema.isPrimitive schema = false)
    (array : (schema.isObject && !schema.has "$ref" &&
      (Schema.declaredType schema).1 = some "array") = true)
    (others : Schema.isPrimitive (schema.get "items") = false)
    (run : Runs (resolveRegistered self (scope.down ["items"]) name (schema.get "items") (some true)) p
      payload q) : Origin self scope name schema p payload q
  | whole {payload : Payload} {q : Progress} (present : schema.isNull = false)
    (composed : Schema.isPrimitive schema = false)
    (single : (schema.isObject && !schema.has "$ref" &&
      (Schema.declaredType schema).1 = some "array") = false)
    (run : Runs (resolveRegistered self scope name schema .none) p payload q) :
    Origin self scope name schema p payload q

theorem resolve_origin {schema : Json} {payload : Payload}
    (h : Runs (resolve self scope name schema) p payload q) :
    Origin self scope name schema p payload q := by
  unfold resolve at h
  rw [runs_ite] at h
  split at h
  · next null =>
    obtain ⟨rfl, rfl⟩ := runs_pure.1 h
    exact .missing null
  next present =>
  rw [runs_ite] at h
  split at h
  · next primitive =>
    obtain ⟨rfl, rfl⟩ := runs_pure.1 h
    exact .simple primitive
  next composed =>
  have present : schema.isNull = false := Bool.eq_false_iff.2 present
  have composed : Schema.isPrimitive schema = false := Bool.eq_false_iff.2 composed
  rw [runs_ite] at h
  split at h
  · next array =>
    split at h
    · exact (runs_malformed.1 h).elim
    next items hi =>
    obtain rfl := Json.eq_of_nonNull hi
    rw [runs_ite] at h
    split at h
    · next primitive =>
      obtain ⟨rfl, rfl⟩ := runs_pure.1 h
      exact .simples present composed array primitive
    · next others => exact .items present composed array (Bool.eq_false_iff.2 others) h
  · next single => exact .whole present composed (Bool.eq_false_iff.2 single) h

/-- The schema that a payload is registered by: the items of an array, or the schema itself. A
schema that is missing or primitive, and an array of such items, is not registered. -/
def registered? (schema : Json) : Option Json :=
  if schema.isNull || Schema.isPrimitive schema then Option.none
  else if schema.isObject && !schema.has "$ref" &&
      (Schema.declaredType schema).1 = some "array" then
    if Schema.isPrimitive (schema.get "items") then Option.none else some (schema.get "items")
  else some schema

theorem resolve_runs {schema : Json} {payload : Payload}
    (h : Runs (resolve self scope name schema) p payload q) :
    (q = p ∧ registered? schema = Option.none ∧ payload.ref = Option.none) ∨
    ∃ v scope' array, registered? schema = some v ∧
      Runs (resolveRegistered self scope' name v array) p payload q := by
  cases resolve_origin h with
  | missing null => exact Or.inl ⟨rfl, by simp [registered?, null], rfl⟩
  | simple primitive => exact Or.inl ⟨rfl, by simp [registered?, primitive], rfl⟩
  | simples present composed array primitive =>
    exact Or.inl ⟨rfl, by simp [registered?, present, composed, array, primitive], rfl⟩
  | items present composed array others run =>
    exact Or.inr ⟨_, _, _, by simp [registered?, present, composed, array, others], run⟩
  | whole present composed single run =>
    exact Or.inr ⟨_, _, _, by simp [registered?, present, composed, single], run⟩

end Payload

/-- The verb of an operation is part of the names of its payloads. -/
theorem Occasion.payloadName_ne_empty {o : Occasion} {verb : Verb} (h : o.verb = verb.word)
    (mediaType status : Option String) : o.payloadName mediaType status ≠ "" := by
  intro he
  have hn := String.ofList_eq_empty_iff.1 he
  have hp : (Naming.pascalCase verb.word.toList).any Text.isWord = true := by
    cases verb <;> decide
  obtain ⟨c, hc, hw⟩ := List.any_eq_true.1 hp
  refine List.filter_eq_nil_iff.1 hn c (List.mem_flatten.2 ⟨_, ?_, hc⟩) hw
  rw [List.mem_eraseDups, List.mem_filter, h]
  exact ⟨by simp, by cases verb <;> decide⟩

namespace Response

variable {o : Occasion} {status : String} {headers : Dict String Ref} {responses : List Response}

/-- Each media type, which is an object, gets a response of its own with the payload of its
schema. -/
theorem resolveMedia_runs {entry : String × Json} {rest : List (String × Json)}
    (h : Runs (resolveMedia self scope o status headers node (entry :: rest)) p responses q) :
    entry.2.isObject = true ∧ ∃ payload s response more,
      Runs (Payload.resolve self (scope.down ["content", entry.1])
        (o.payloadName (some entry.1) (some status)) (entry.2.get "schema")) p payload s ∧
      Runs (resolveMedia self scope o status headers node rest) s more q ∧
      responses = response :: more ∧ response.status = status ∧
      response.mediaType = some entry.1 ∧ response.payload = payload.ref ∧
      response.headers = headers ∧ response.type = payload.type ∧
      response.array = payload.array := by
  unfold resolveMedia at h
  simp only [runs_ite, runs_bind, runs_malformed, runs_fit, runs_pure] at h
  split at h
  · obtain ⟨_, _, hf, -⟩ := h
    exact hf.elim
  next ho =>
  obtain ⟨payload, s, hp, _, _, ⟨_, rfl⟩, more, _, hm, rfl, rfl⟩ := h
  exact ⟨by simpa using ho, payload, s, _, more, hp, hm, rfl, rfl, rfl, rfl, rfl, rfl, rfl⟩

/-- The responses of a status are those of its media types, or one without a payload. -/
theorem resolveStatus_runs (h : Runs (resolveStatus document self scope o status node) p responses q) :
    ∃ v headers s, followChain document p.registry scope.location (document.size + 2) node = .ok v ∧
      Runs (Header.resolveAll document self scope (v.get "headers")) p headers s ∧
      ((∃ entries, v.get "content" = .obj entries ∧ entries ≠ [] ∧
          Runs (resolveMedia self scope o status headers v entries) s responses q) ∨
        ((v.get "content").truthy = false ∧ q = s ∧ ∃ response, responses = [response] ∧
          response.status = status ∧ response.mediaType = none ∧ response.payload = none ∧
          response.headers = headers ∧ response.type = none ∧ response.array = none)) := by
  simp only [resolveStatus, runs_bind, runs_ite, runs_fit, runs_pure] at h
  obtain ⟨v, _, hd, headers, s, hh, h⟩ := h
  obtain ⟨rfl, hv⟩ := dereference_runs hd
  refine ⟨v, headers, s, hv, hh, ?_⟩
  split at h
  · next full =>
    obtain ⟨entries, _, he, hm⟩ := h
    obtain ⟨rfl, hc⟩ := membersOf_runs he
    refine Or.inl ⟨entries, hc, ?_, hm⟩
    rintro rfl
    rw [hc] at full
    cases full
  · next ht =>
    obtain ⟨_, _, ⟨_, rfl⟩, rfl, rfl⟩ := h
    exact Or.inr ⟨by simpa using ht, rfl, _, rfl, rfl, rfl, rfl, rfl, rfl, rfl⟩

theorem resolveEach_runs {entry : String × Json} {rest : List (String × Json)}
    (h : Runs (resolveEach document self scope o (entry :: rest)) p responses q) :
    ∃ here more s,
      Runs (resolveStatus document self (scope.down ["responses", entry.1]) o entry.1 entry.2) p here
        s ∧
      Runs (resolveEach document self scope o rest) s more q ∧ responses = here ++ more := by
  unfold resolveEach at h
  simp only [runs_bind, runs_pure] at h
  obtain ⟨here, s, hh, more, _, hm, rfl, rfl⟩ := h
  exact ⟨here, more, s, hh, hm, rfl⟩

theorem resolveAll_runs {v : Json} (h : Runs (resolveAll document self scope o v) p responses q) :
    ∃ entries, v = .obj entries ∧ Runs (resolveEach document self scope o entries) p responses q := by
  unfold resolveAll at h
  split at h
  · exact ⟨_, rfl, h⟩
  · exact (runs_malformed.1 h).elim

end Response

namespace RequestBody

variable {o : Occasion} {bodies : List RequestBody}

/-- The first media type has its payload resolved, and the others share it. -/
theorem resolveMedia_runs {shared : Option Payload} {entry : String × Json}
    {rest : List (String × Json)}
    (h : Runs (resolveMedia self scope o node shared (entry :: rest)) p bodies q) :
    entry.2.isObject = true ∧ ∃ (payload : Payload) (s : Progress) (body : RequestBody)
        (more : List RequestBody),
      ((shared = some payload ∧ s = p) ∨ (shared = none ∧
        Runs (Payload.resolve self (scope.down ["content", entry.1])
          (o.payloadName (some entry.1) none) (entry.2.get "schema")) p payload s)) ∧
      Runs (resolveMedia self scope o node (some payload) rest) s more q ∧
      bodies = body :: more ∧ body.mediaType = some entry.1 ∧ body.payload = payload.ref ∧
      body.type = payload.type ∧ body.array = payload.array := by
  unfold resolveMedia at h
  simp only [runs_ite, runs_bind, runs_malformed] at h
  split at h
  · obtain ⟨_, _, hf, -⟩ := h
    exact hf.elim
  next ho =>
  refine ⟨by simpa using ho, ?_⟩
  cases shared with
  | some known =>
    simp only [runs_bind, runs_fit, runs_pure] at h
    obtain ⟨held, _, ⟨rfl, rfl⟩, _, _, ⟨_, rfl⟩, more, _, hm, rfl, rfl⟩ := h
    exact ⟨held, _, _, more, Or.inl ⟨rfl, rfl⟩, hm, rfl, rfl, rfl, rfl, rfl⟩
  | none =>
    simp only [runs_bind, runs_fit, runs_pure] at h
    obtain ⟨found, s, hp, _, _, ⟨_, rfl⟩, more, _, hm, rfl, rfl⟩ := h
    exact ⟨found, s, _, more, Or.inr ⟨rfl, hp⟩, hm, rfl, rfl, rfl, rfl, rfl⟩

theorem resolveAll_runs (h : Runs (resolveAll document self scope o node) p bodies q) :
    ∃ v, followChain document p.registry (scope.down ["requestBody"]).location (document.size + 2)
        node = .ok v ∧
      (((v.get "content").truthy = false ∧ q = p ∧ bodies = []) ∨
        ∃ entries, v.get "content" = .obj entries ∧ distinctShapes entries ≤ 1 ∧
          Runs (resolveMedia self (scope.down ["requestBody"]) o v none entries) p bodies q) := by
  simp only [resolveAll, runs_bind, runs_ite, runs_pure] at h
  obtain ⟨v, _, hd, h⟩ := h
  obtain ⟨rfl, hv⟩ := dereference_runs hd
  refine ⟨v, hv, ?_⟩
  split at h
  · next ht =>
    obtain ⟨rfl, rfl⟩ := h
    exact Or.inl ⟨by simpa using ht, rfl, rfl⟩
  · split at h
    · next entries he =>
      simp only [runs_ite, runs_bind, runs_malformed] at h
      split at h
      · obtain ⟨_, _, hf, -⟩ := h
        exact hf.elim
      · next hc => exact Or.inr ⟨entries, he, by omega, h⟩
    · exact (runs_malformed.1 h).elim

end RequestBody

namespace Method

theorem claimName_runs {free : String} (h : Runs (claimName name) p free q) :
    free = Registry.freeVariant p.methodNames name ∧
      q = { p with methodNames := free :: p.methodNames } := by
  simp only [claimName, runs_bind, runs_get, runs_modify, runs_pure] at h
  obtain ⟨_, _, ⟨rfl, rfl⟩, -, _, rfl, rfl, rfl⟩ := h
  exact ⟨rfl, rfl⟩

/-- An operation asks for a name of word characters, after its identifier if it has one. -/
theorem wantedName_runs {verb path wanted : String} {operationId : Json}
    (h : Runs (wantedName verb path operationId) p wanted q) :
    q = p ∧ ∃ given, wanted = String.ofList (Naming.method given verb.toList path.toList) ∧
      (given ≠ [] → operationId = .str (String.ofList given)) := by
  unfold wantedName at h
  rw [runs_ite] at h
  split at h
  · split at h
    · next s _ =>
      obtain ⟨rfl, rfl⟩ := runs_pure.1 h
      exact ⟨rfl, _, rfl, fun _ => congrArg Json.str String.ofList_toList.symm⟩
    · exact (runs_fail.1 h).elim
  · obtain ⟨rfl, rfl⟩ := runs_pure.1 h
    exact ⟨rfl, _, rfl, fun some => absurd rfl some⟩

/-- An operation has its parameters resolved first and gathered next, then its responses, then its
request bodies. -/
theorem resolve_runs {verb : Verb} {path : String} {item operation : Json} {m : Method}
    (h : Runs (resolve document self scope verb path item operation) p m q) :
    ∃ wanted params o p₁ p₂ p₃ p₄ p₅ p₆,
      (∃ given, wanted =
        String.ofList (Naming.method given verb.word.toList path.toList)) ∧
      o.path = path ∧ o.verb = verb.word ∧ m.name = Registry.freeVariant p.methodNames wanted ∧
      p₁.registry = p.registry ∧ p₁.notices = p.notices ∧
      p₁.methodNames = m.name :: p.methodNames ∧
      Runs (Parameter.merge document scope (orElse (item.get "parameters") (.arr []))
        (orElse (operation.get "parameters") (.arr []))) p₁ params p₁ ∧
      Runs (Parameter.resolveAll self scope params) p₁
        ⟨m.pathParams, m.queryParams, m.headerParams⟩ p₂ ∧
      Runs (Parameter.gather scope m.pathParams (m.name ++ "Path")) p₂ m.pathObject p₃ ∧
      Runs (Parameter.gather scope m.queryParams (m.name ++ "Query")) p₃ m.queryObject p₄ ∧
      Runs (Parameter.gather scope m.headerParams (m.name ++ "Headers")) p₄ m.headerObject p₅ ∧
      Runs (Response.resolveAll document self scope o
        (orElse (operation.get "responses") (.obj []))) p₅ m.responses p₆ ∧
      ((operation.get "requestBody").isNull = true ∧ q = p₆ ∧ m.requestBodies = [] ∨
        (operation.get "requestBody").isNull = false ∧
          Runs (RequestBody.resolveAll document self scope o (operation.get "requestBody")) p₆
            m.requestBodies q) ∧
      m.verb = verb ∧ m.path = path := by
  simp only [resolve, runs_bind, runs_ite, runs_malformed, runs_fail, runs_fit, runs_pure] at h
  split at h
  · obtain ⟨_, _, hf, -⟩ := h
    exact hf.elim
  obtain ⟨wanted, _, hw, name, p₁, hn, tags, _, ht, h⟩ := h
  split at h
  · obtain ⟨_, _, hf, -⟩ := h
    exact hf.elim
  obtain ⟨params, _, hm, ⟨pp, qp, hp⟩, p₂, hg, header, _, ⟨_, rfl⟩, po, p₃, h₁, qo, p₄, h₂, ho, p₅, h₃,
    responses, p₆, h₄, h⟩ := h
  obtain ⟨rfl, given, rfl, -⟩ := wantedName_runs hw
  obtain ⟨rfl, rfl⟩ := claimName_runs hn
  obtain rfl := itemsOf_runs ht
  obtain rfl := Parameter.merge_runs hm
  split at h
  · next hb =>
    obtain ⟨bodies, _, ⟨rfl, rfl⟩, rfl, rfl⟩ := h
    refine ⟨_, params, _, _, p₂, p₃, p₄, p₅, _, ⟨given, rfl⟩, rfl, rfl, rfl, ?_, ?_, ?_, hm, hg, h₁, h₂, h₃,
      h₄, Or.inl ⟨hb, rfl, rfl⟩, rfl, rfl⟩ <;> rfl
  · next hb =>
    obtain ⟨bodies, _, h₅, rfl, rfl⟩ := h
    refine ⟨_, params, _, _, p₂, p₃, p₄, p₅, p₆, ⟨given, rfl⟩, rfl, rfl, rfl, ?_, ?_, ?_, hm, hg, h₁, h₂, h₃,
      h₄, Or.inr ⟨by simpa using hb, h₅⟩, rfl, rfl⟩ <;> rfl

end Method

end ApiGraph
