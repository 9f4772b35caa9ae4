import ApiGraph.Proofs.Resolve.Asking
import ApiGraph.Proofs.Resolve.Collection

/-! What the resolution of a node asks of the resolver: whatever the form of the node, only about
smaller parts of it and about the targets of references that are followed for the first time. -/

namespace ApiGraph

open Resolving

variable {document node v : Json} {scope : Scope} {site : Site} {m : Model}

theorem Json.inside_of_nonNull {key : String} (h : (node.get key).nonNull = some v) :
    v.Inside node := by
  obtain rfl := Json.eq_of_nonNull h
  refine Json.inside_get fun hn => ?_
  rw [hn] at h
  cases h

/-- What became of the target of a reference is entered without a question. -/
theorem asking_answer (text : String) (target : Json) (location : String) (result : Link Model) :
    Asking document node fun _ => (do
      match result with
      | .ref found =>
        if !found.isRemote then setRegistry ((← registry).redirect text found.name)
        return found
      | .model _ =>
        let resolved ← assert target result (some text) .named location
        return resolved.ref : Resolving Ref) := by
  cases result with
  | ref found =>
    exact .ite (fun _ p => .done fun k hk => Dict.mem_keys_put.2 (Or.inl hk)) fun _ => .pure _
  | model m => exact .bind (.assert _ _ _ _ _) fun _ => .pure _

/-- A reference is followed when its text is no key yet, and has become one when its target is
resolved. -/
theorem asking_followReference {text : String} (stands : v = node ∨ v.Inside node)
    (isRef : v.get? "$ref" = some (.str text)) (isLocal : Pointer.isLocal text = true)
    {p : Progress} (new : p.registry.lookupRef text = none) :
    Asks document node p fun self => (followReference document self scope text).run.run p := by
  unfold followReference
  split
  · exact .done (.refl p)
  next target leads =>
  have unknown : text ∉ Dict.keys p.registry.named := by
    intro hk
    rw [Dict.mem_keys_iff_has, Dict.has, (Registry.lookupRef_eq_none new).1] at hk
    cases hk
  obtain ⟨kept, known⟩ := Registry.keys_reserve (r := p.registry) text (pointerName text)
  generalize hr : p.registry.reserve text (pointerName text) = x at kept known
  obtain ⟨reserved, r⟩ := x
  refine Asks.bind_of (.refl p) fun r' q hr' => ?_
  obtain ⟨rfl, rfl⟩ := runs_registry.1 hr'
  rw [hr]
  -- The target is resolved in a state in which the text is a key.
  let c : Question := ⟨.ofOwner (scope.relocated (Pointer.segments text)) reserved.name, target,
    { p with registry := r }⟩
  have arises : c.Arises document node p (.followed text) :=
    .followed stands isRef isLocal unknown leads known
  refine Asks.ask_bind (c := c) arises kept fun out => ?_
  exact asking_answer text target scope.location out.result

theorem asking_resolveReference (stands : v = node ∨ v.Inside node) :
    Asking document node fun self => resolveReference document self scope v := by
  unfold resolveReference
  split
  · next text isRef =>
    refine .ite (fun _ => .pure _) fun hl p => ?_
    refine Asks.bind_of (.refl p) fun r q hr => ?_
    obtain ⟨rfl, rfl⟩ := runs_registry.1 hr
    split
    · exact .done (.refl p)
    · next new => exact asking_followReference stands isRef (by simpa using hl) new
  · exact .malformed _ _
  · exact .fail _

namespace Schema

variable {name parent : String} {required : List String}

theorem asking_member (h : v.Inside node) :
    Asking document node fun self => resolveMember self scope name required v := by
  refine .bind (.freeName _) fun free => .bind (.part h _) fun out => ?_
  cases out.result with
  | ref _ => exact .pure _
  | model m => exact .bind (.claim _) fun _ => .pure _

theorem asking_array : Asking document node fun self => resolveArray self site node m := by
  unfold resolveArray
  split
  · exact .malformed _ _
  next items hi =>
  refine .bind (.freeName _) fun free => .bind (.part (Json.inside_of_nonNull hi) _) fun out => ?_
  cases out.result with
  | ref _ => exact .pure _
  | model item => exact .ite (fun _ => .pure _) fun _ => .bind (.claim _) fun _ => .pure _

theorem asking_mapValues : Asking document node fun self => resolveMapValues self site node m := by
  unfold resolveMapValues
  split
  · exact .pure _
  next entries hv =>
    have inside : (Json.obj entries).Inside node := hv ▸ Json.inside_get (by rw [hv]; nofun)
    exact .bind (asking_member inside) fun _ => .pure _
  · exact .pure _

theorem asking_requiredNames : Asking document node fun _ => requiredNames v := by
  unfold requiredNames
  split
  · exact .ite (fun _ => .fail _) fun _ => .pure _
  · exact .pure _

theorem asking_outlineField : Asking document node fun _ => outlineField name v :=
  .bind .fit fun _ => .pure _

theorem asking_fieldType {f : Field} (h : v.Inside node) :
    Asking document node fun self => resolveFieldType document self scope parent v f := by
  unfold resolveFieldType
  refine .ite (fun _ => ?_) fun _ => ?_
  · exact .bind (asking_resolveReference (Or.inr h)) fun _ => .pure _
  refine .ite (fun _ => .pure _) fun _ => .ite (fun _ => ?_) fun _ => .pure _
  split
  · exact .malformed _ _
  next target ht =>
  have inside : target.Inside node := by
    split at ht
    · exact (Json.inside_of_nonNull ht).trans h
    · exact Option.some.inj ht ▸ h
  exact .bind (asking_member inside) fun _ => .pure _

theorem asking_field (h : v.Inside node) :
    Asking document node fun self => resolveField document self scope parent required name v := by
  unfold resolveField
  refine .ite (fun _ => .malformed_bind) fun _ => ?_
  refine .bind asking_outlineField fun start => .bind (asking_fieldType h) fun _ => .pure _

theorem asking_fields {entries : List (String × Json)} (h : ∀ e ∈ entries, e.2.Inside node) :
    Asking document node fun self => resolveFields document self scope parent required entries := by
  induction entries with
  | nil => exact .pure _
  | cons entry rest ih =>
    refine .bind (asking_field (h entry List.mem_cons_self)) fun _ => ?_
    exact .bind (ih fun e he => h e (List.mem_cons_of_mem _ he)) fun _ => .pure _

theorem asking_properties :
    Asking document node fun self => resolveProperties document self site required node m := by
  unfold resolveProperties
  refine .ite (fun _ => .pure _) fun _ => ?_
  split
  · next entries hp =>
    have inside : (Json.obj entries).Inside node := hp ▸ Json.inside_get (by rw [hp]; nofun)
    exact asking_fields fun e he => (Json.Inside.entry he).trans inside
  · exact .malformed _ _

theorem asking_branches {key : String} {i : Nat} {branches : List Json}
    (h : ∀ v ∈ branches, v.Inside node) :
    Asking document node fun self => resolveBranches self scope key name required i branches := by
  induction branches generalizing i with
  | nil => exact .pure _
  | cons branch rest ih =>
    refine .bind (asking_member (h branch List.mem_cons_self)) fun _ => ?_
    exact .bind (ih fun v hv => h v (List.mem_cons_of_mem _ hv)) fun _ => .pure _

theorem asking_combinator {key label : String} :
    Asking document node fun self => resolveCombinator self site required node m key label := by
  unfold resolveCombinator
  split
  · exact .pure _
  · next items hk =>
    have inside : (Json.arr items).Inside node := hk ▸ Json.inside_get (by rw [hk]; nofun)
    exact .bind (asking_branches fun v hv => (Json.Inside.item hv).trans inside) fun _ => .pure _
  · exact .malformed _ _

theorem asking_composite :
    Asking document node fun self => resolveComposite document self site node m :=
  .bind asking_requiredNames fun _ => .bind asking_properties fun _ =>
    .bind asking_combinator fun _ => .bind asking_combinator fun _ =>
      .bind asking_combinator fun _ => .pure _

theorem asking_parts : Asking document node fun self => resolveParts document self site node m := by
  refine .ite (fun _ => asking_array) fun _ => .bind asking_mapValues fun _ => ?_
  exact .ite (fun _ => .bind asking_composite fun _ => .pure _) fun _ => .pure _

theorem asking_resolve : Asking document node fun self => resolve document self site node := by
  refine .bind .registry fun r => ?_
  split
  · exact .pure _
  · refine .bind (.bind .fit fun _ => .pure _) fun _ => .bind asking_parts fun _ => ?_
    exact .ite (fun _ => .pure _) fun _ => .pure _

end Schema

namespace Parameter

variable {given : String}

/-- The schemas of a parameter stand in a node. -/
def SchemasInside (v node : Json) : Prop :=
  ∀ schema p q, Runs (schemaOf v) p (some schema) q → schema.Inside node

theorem asking_schemaOf : Asking document node fun _ => schemaOf v := by
  refine .ite (fun _ => .fail_bind) fun _ => ?_
  split
  · exact .pure _
  · refine .bind (.ite (fun _ => .bind ?_ fun _ => .pure _) fun _ => .pure _) fun _ => .pure _
    unfold membersOf
    split
    · exact .pure _
    · exact .fail _

theorem asking_placeOf : Asking document node fun _ => placeOf scope v := by
  refine .ite (fun _ => .fail_bind) fun _ => ?_
  split
  · exact .pure _
  · exact .malformed _ _

theorem asking_nameFor {place : ParameterPlace} :
    Asking document node fun _ => nameFor given place v := by
  refine .ite (fun _ => .pure _) fun _ => ?_
  split
  · exact .pure _
  · exact .fail _

theorem asking_values {schema : Option Json} (h : ∀ v, schema = some v → v.Inside node) :
    Asking document node fun self => resolveValues self scope schema m := by
  cases schema with
  | none => exact .pure _
  | some v =>
    refine .bind (.part (h v rfl) _) fun out => ?_
    cases out.result with
    | ref _ => exact .pure _
    | model parsed =>
      exact .ite (fun _ => .bind (.assert _ _ _ _ _) fun _ => .pure _) fun _ => .pure _

theorem asking_resolve (h : SchemasInside v node) :
    Asking document node fun self => resolve self scope given v := by
  refine .bind asking_placeOf fun place => .bind asking_nameFor fun name => .bind .fit fun _ => ?_
  refine .bind_of asking_schemaOf fun schema hs => ?_
  obtain ⟨p, q, hs⟩ := hs
  refine .bind (asking_values fun w hw => h w p q (hw ▸ hs)) fun m => ?_
  exact .ite (fun _ => .pure _) fun _ => .pure _

theorem mediaOf_inside {media : List Json} {p q : Progress} (h : Runs (mediaOf v) p media q)
    (hc : v.get "content" = node.get "content") : ∀ w ∈ media, w.Inside node := by
  simp only [mediaOf, runs_ite, runs_bind, runs_pure] at h
  split at h
  · obtain ⟨entries, _, he, rfl, rfl⟩ := h
    obtain ⟨-, he⟩ := membersOf_runs he
    intro w hw
    obtain ⟨e, hm, rfl⟩ := List.mem_map.1 hw
    have inside : (Json.obj entries).Inside node := by
      rw [← he, hc]
      exact Json.inside_get (by simp [← hc, he])
    exact (Json.Inside.entry hm).trans inside
  · obtain ⟨rfl, rfl⟩ := h
    simp

/-- A value with the schema and the content of a node has its schemas in the node. -/
theorem schemasInside (hs : v.get "schema" = node.get "schema")
    (hc : v.get "content" = node.get "content") : SchemasInside v node := by
  intro schema p q h
  simp only [schemaOf, runs_ite, runs_bind, runs_fail] at h
  split at h
  · obtain ⟨_, _, hf, -⟩ := h
    exact hf.elim
  split at h
  · next entries he =>
    obtain ⟨he', -⟩ := runs_pure.1 h
    obtain rfl := Option.some.inj he'
    rw [← he, hs]
    exact Json.inside_get (by simp [← hs, he])
  · simp only [runs_bind, runs_pure] at h
    obtain ⟨media, _, hm, hf, -⟩ := h
    obtain ⟨w, hw, rfl⟩ := List.mem_map.1 (List.mem_of_find?_eq_some hf.symm)
    have object := List.find?_some hf.symm
    refine (Json.inside_get fun hn => ?_).trans (mediaOf_inside hm hc w hw)
    rw [hn] at object
    cases object

end Parameter

namespace Header

variable {name : String} {entries : List (String × Json)}

theorem get_asParameter {key : String} (hn : (key == "name") = false) (hi : (key == "in") = false) :
    (asParameter name entries).get key = (Json.obj entries).get key := by
  have hg : (asParameter name entries).get? key = (Json.obj entries).get? key := by
    rw [asParameter, Json.get?, Json.get?, Dict.lookup_put_of_ne _ _ hi,
      Dict.lookup_put_of_ne _ _ hn]
  rw [Json.get, Json.get, hg]

/-- The schemas of a header stand in the header. -/
theorem schemasInside (h : Json.obj entries = node ∨ (Json.obj entries).Inside node) :
    Parameter.SchemasInside (asParameter name entries) node := by
  have own : Parameter.SchemasInside (asParameter name entries) (.obj entries) :=
    Parameter.schemasInside (get_asParameter rfl rfl) (get_asParameter rfl rfl)
  intro schema p q hr
  obtain rfl | inside := h
  · exact own schema p q hr
  · exact (own schema p q hr).trans inside

theorem asking_resolve (h : v.Inside node) :
    Asking document node fun self => resolve document self scope name v := by
  unfold resolve
  split
  · refine .ite (fun _ => asking_resolveReference (Or.inr h)) fun _ => ?_
    exact .bind (Parameter.asking_resolve (schemasInside (Or.inr h))) fun _ =>
      .bind (.assert _ _ _ _ _) fun _ => .pure _
  · exact .malformed _ _

theorem asking_each (h : ∀ e ∈ entries, e.2.Inside node) :
    Asking document node fun self => resolveEach document self scope entries := by
  induction entries with
  | nil => exact .pure _
  | cons entry rest ih =>
    refine .bind (asking_resolve (h entry List.mem_cons_self)) fun _ => ?_
    exact .bind (ih fun e he => h e (List.mem_cons_of_mem _ he)) fun _ => .pure _

theorem asking_holder {kind : Kind} :
    Asking document node fun self => resolveHolder document self scope kind name node := by
  refine .bind .fit fun _ => .bind (.ite (fun _ => .pure _) fun _ => ?_) fun _ => .pure _
  split
  · next entries hh =>
    have inside : (Json.obj entries).Inside node := hh ▸ Json.inside_get (by rw [hh]; nofun)
    exact asking_each fun e he => (Json.Inside.entry he).trans inside
  · exact .malformed _ _

end Header

theorem asking_securityScheme {given : String} :
    Asking document node fun _ => resolveSecurityScheme scope given v := by
  unfold resolveSecurityScheme
  split
  · exact .fail _
  next type _ =>
  have name : Asking document node fun _ => securitySchemeName given type := by
    refine .ite (fun _ => .pure _) fun _ => ?_
    split
    · exact .pure _
    · exact .fail _
    · exact .fail _
  exact .bind name fun _ => .bind .fit fun _ => .pure _

/-- Whatever form a node has, its resolution asks only what the node gives cause for. -/
theorem asking_resolveForm (document : Json) (site : Site) (node : Json) :
    Asking document node fun self => resolveForm document self site node := by
  refine .ite (fun _ => .malformed_bind) fun _ => ?_
  split
  · exact .bind (asking_resolveReference (Or.inl rfl)) fun _ => .pure _
  · exact .bind asking_securityScheme fun _ => .pure _
  · exact .bind (Parameter.asking_resolve (Parameter.schemasInside rfl rfl)) fun _ => .pure _
  · exact .bind Header.asking_holder fun _ => .pure _
  · exact .bind Header.asking_holder fun _ => .pure _
  · exact Schema.asking_resolve

namespace Component

variable {e : Entry}

theorem asking_declared : Asking document node fun _ => declared document := by
  have each (components : Json) (gs : List Group) :
      Asking document node fun _ => gs.mapM (entriesOf components) := by
    induction gs with
    | nil => exact .pure _
    | cons group gs ih =>
      simp only [List.mapM_cons]
      refine .bind ?_ fun _ => .bind ih fun _ => .pure _
      unfold entriesOf
      split
      · exact .pure _
      · exact .pure _
      · exact .malformed _ _
  refine .ite (fun _ => .pure _) fun _ => .ite (fun _ => .malformed_bind) fun _ => ?_
  exact .bind (each _ _) fun _ => .pure _

theorem asking_canonicalName : Asking document node fun _ => canonicalName e :=
  .bind .registry fun _ => .pure _

theorem asking_resolve (h : e.node.Inside node) :
    Asking document node fun self => resolve self scope e := by
  refine .bind asking_canonicalName fun name => ?_
  have plain (scope : Scope) : Asking document node fun self => (do
      return (← self { Site.ofOwner scope name with hint := e.group.hint } e.node).result) :=
    .bind (.part h _) fun _ => .pure _
  split
  · next entries he =>
    refine .ite (fun _ => ?_) fun _ => plain _
    exact .bind (Parameter.asking_resolve (Header.schemasInside (Or.inr (he ▸ h)))) fun _ => .pure _
  · exact plain _

theorem asking_each {es : List Entry} (h : ∀ e ∈ es, e.node.Inside node) :
    Asking document node fun self => resolveEach self scope es := by
  induction es with
  | nil => exact .pure _
  | cons e rest ih =>
    refine .bind (asking_resolve (h e List.mem_cons_self)) fun _ => ?_
    exact .bind (ih fun e he => h e (List.mem_cons_of_mem _ he)) fun _ => .pure _

theorem asking_register {resolved : List (Entry × Link Model)} :
    Asking document node fun _ => resolved.forM register := by
  induction resolved with
  | nil => exact .pure _
  | cons pair rest ih =>
    refine .bind ?_ fun _ => ih
    obtain ⟨e, _ | m⟩ := pair
    · exact .pure _
    · exact .bind (.assert _ _ _ _ _) fun _ => .pure _

theorem asking_round {pending : List (Entry × Ref)} :
    Asking document node fun _ => aliasRound pending := by
  induction pending with
  | nil => exact .pure _
  | cons pair rest ih =>
    obtain ⟨e, ref⟩ := pair
    have one : Asking document node fun _ => registerAlias e ref := by
      refine .bind asking_canonicalName fun _ => .bind .registry fun r => ?_
      split
      · exact .pure _
      · exact .bind (.assert _ _ _ _ _) fun _ => .pure _
    exact .bind one fun _ => .ite (fun _ => ih) fun _ => .bind ih fun _ => .pure _

theorem asking_aliases {rounds : Nat} {pending : List (Entry × Ref)} :
    Asking document node fun _ => registerAliases rounds pending := by
  induction rounds generalizing pending with
  | zero =>
    cases pending with
    | nil => exact .pure _
    | cons _ _ => exact .fail _
  | succ rounds ih =>
    cases pending with
    | nil => exact .pure _
    | cons _ _ =>
      refine .bind asking_round fun kept => ?_
      split
      · exact .pure _
      · exact .ite (fun _ => .fail _) fun _ => ih

/-- A declared component stands in the document. -/
theorem inside_of_listed (h : e ∈ listed document) : e.node.Inside document := by
  obtain ⟨group, -, h⟩ := List.mem_flatMap.1 h
  unfold listedIn at h
  split at h
  · next entries he =>
    obtain ⟨entry, hm, rfl⟩ := List.mem_map.1 h
    have object : (Json.obj entries).Inside (document.get "components") :=
      he ▸ Json.inside_get (by rw [he]; nofun)
    have components : (document.get "components").Inside document :=
      Json.inside_get fun hn => by
        rw [hn] at he
        cases he
    exact (Json.Inside.entry hm).trans (object.trans components)
  · cases h

end Component

end ApiGraph
