import ApiGraph.Proofs.Resolve.Foreseen.Node

/-! Operations fail only as is foreseen. Their nodes are dereferenced first, which ends in an orderly
document; a parameter is placed by the node that its model was resolved from, which is there unless a
reference stands for a model without one. -/

namespace ApiGraph

open Resolving Registry
open Method (orElse)

variable {document node : Json} {self : Resolver} {scope : Scope} {site : Site} {m : Model}
  {r s : Registry} {out : Outcome} {name : String} {location : String} {found : Resolved}

theorem orElse_cases (v other : Json) :
    v.truthy = true ∧ orElse v other = v ∨ orElse v other = other := by
  unfold orElse
  split
  · next truthy => exact .inl ⟨truthy, rfl⟩
  · exact .inr rfl

section

variable (chains : document.ChainsEnd)

theorem registeredNode_drawn {ref : String} {v : Json} (h : r.Sourced document)
    (hv : registeredNode r ref = some v) : v.isObject = true ∧ Drawn document v := by
  unfold registeredNode at hv
  obtain ⟨found, hr, hv⟩ := Option.bind_eq_some_iff.1 hv
  obtain ⟨m, hm, hv⟩ := Option.bind_eq_some_iff.1 hv
  obtain ⟨name, k, rfl, hk⟩ := resolve_found hr
  obtain rfl := Option.some.inj hm
  split at hv
  · next object =>
    obtain rfl := Option.some.inj hv
    rcases (h.models hk).source with none | known
    · rw [none] at object
      cases object
    · exact known
  · cases hv

/-- A chain that ends leads to a node of the document, or fails as is foreseen. -/
theorem followChain_foreseen (location : String) (h : r.Sourced document) {n fuel : Nat}
    (ends : Json.EndsAfter document n node) (enough : n < fuel) (drawn : Drawn document node) :
    match followChain document r location fuel node with
    | .ok v => v.isObject = true ∧ Drawn document v
    | .error f => f.isForeseen = true := by
  induction fuel generalizing n node with
  | zero => exact absurd enough (Nat.not_lt_zero n)
  | succ fuel ih =>
    unfold followChain
    by_cases object : node.isObject = true
    swap
    · simp only [object]
      rfl
    simp only [object, Bool.not_true, Bool.false_eq_true, if_false]
    cases href : node.get? "$ref" with
    | none => exact ⟨object, drawn⟩
    | some v =>
      cases v with
      | str text =>
        dsimp only
        by_cases here : Pointer.isLocal text = true
        swap
        · simp only [here]
          rfl
        simp only [here, Bool.not_true, Bool.false_eq_true, if_false]
        cases hk : registeredNode r text with
        | some known => exact registeredNode_drawn h hk
        | none =>
          cases ht : Pointer.resolve document text with
          | none => rfl
          | some target =>
            have leads : node.target? document = some target :=
              Json.target?_eq_some.2 ⟨text, href, ht⟩
            cases ends with
            | here stops =>
              rw [leads] at stops
              cases stops
            | later leads' rest =>
              rw [leads] at leads'
              obtain rfl := Option.some.inj leads'
              exact ih rest (by omega) (drawn.target leads)
      | _ => rfl

include chains

theorem safe_dereference (h : Drawn document node) :
    Safe document (fun v _ => v.isObject = true ∧ Drawn document v)
      (dereference document scope node) := by
  refine Safe.registry.bind fun r _ hr => ?_
  obtain ⟨n, ends⟩ := h.ends chains
  have whole := followChain_foreseen scope.location hr.2 ends (Nat.lt_succ_of_le ends.le_size) h
  refine Safe.lift (fun v hv _ => ?_) fun f hf => ?_
  · rwa [hv] at whole
  · rwa [hf] at whole

end

/-- The items of a list that is gone through. -/
theorem safe_itemsOf {v : Json} {parts : List Json} (h : v.parts? = some parts) :
    Safe document (fun items _ => items = parts) (itemsOf v) := by
  unfold itemsOf
  rw [h]
  exact .pure fun _ => rfl

theorem Drawn.parameters (h : Drawn document node) (orderly : document.Orderly) :
    ∃ parts, (orElse (node.get "parameters") (.arr [])).parts? = some parts ∧
      ∀ v ∈ parts, Drawn document v := by
  rcases orElse_cases (node.get "parameters") (.arr []) with ⟨truthy, same⟩ | other
  · rw [same]
    obtain ⟨parts, hp⟩ := Option.isSome_iff_exists.1 ((h.fit orderly).parameters truthy)
    exact ⟨parts, hp, fun v hv => h.item (by decide) hp hv⟩
  · rw [other]
    exact ⟨[], rfl, nofun⟩

/-- A node that is registered by its content, and is no schema, leads to a handle inside the document
if it has a model. -/
theorem Settles.registered (h : Settles site node out r) (drawn : Drawn document node)
    (hr : r.Sourced document)
    (other : node.isObject = true → Schema.formOf node site.hint ≠ .schema)
    (ha : r.assert node out.result none .structural location = .ok (found, s))
    (hm : found.model = some m) :
    found.ref.isRemote = false ∧ (s.Rooted → m.source.isObject = true) := by
  have sourced := h.sourced drawn
  cases h with
  | @model k needs _ plain =>
    have registered := assert_model plain ha
    obtain ⟨hk, object⟩ := sourced k rfl
    have kept :=
      (hr.register hk (fun _ : KeySpace.structural = .structural => object) node.canonical).2 m
    rcases assert_found ha with ⟨remote, -⟩ | ⟨name, k', rfl, -⟩
    · have named : (r.register .structural node.canonical k).1.ref.isRemote = false := by
        unfold Registry.register
        split
        · split <;> rfl
        · rfl
      rw [show r.register .structural node.canonical k = (found, s) from registered] at named
      rw [named] at remote
      cases remote
    · refine ⟨rfl, fun _ => kept ?_ rfl⟩
      rw [show r.register .structural node.canonical k = _ from registered]
      exact hm
  | @reference ref _ isRef leads =>
    simp only [Registry.assert] at ha
    cases hq : r.requireRef ref location with
    | error f =>
      rw [hq] at ha
      cases ha
    | ok known =>
      rw [hq] at ha
      obtain ⟨rfl, rfl⟩ := Prod.mk.inj (Except.ok.inj ha)
      cases remote : ref.isRemote with
      | true =>
        unfold requireRef resolveRef at hq
        rw [remote] at hq
        obtain rfl := Except.ok.inj hq
        cases hm
      | false =>
        obtain ⟨name, k, resolved, rfl, -⟩ := requireRef_model hq remote
        refine ⟨rfl, fun rooted => ?_⟩
        rcases leads with out | ⟨text, known, here, hk, same⟩
        · rw [remote] at out
          cases out
        · refine rooted text m.source here ?_
          obtain rfl := Option.some.inj hm
          simp only [origin?, hk, same, resolved, Option.bind_eq_bind, Option.bind_some,
            Option.pure_def]
  | known object schema => exact absurd schema (other object)

namespace Parameter

section

variable (chains : document.ChainsEnd)
include chains

theorem safe_identity (h : Drawn document node) :
    Safe document Anything (identity document scope node) := by
  have follow : Safe document Anything (do
      let target ← dereference document scope node
      return (((target.get? "name").map Json.shown).getD "",
        ((target.get? "in").map Json.shown).getD "")) :=
    (safe_dereference chains h).bind fun _ _ _ => .pure fun _ => trivial
  unfold identity
  dsimp only
  split
  · exact .ite (fun _ => follow) fun _ => .pure fun _ => trivial
  · exact follow

theorem safe_merge {inherited own : List Json} {v w : Json} (hv : v.parts? = some inherited)
    (hi : ∀ param ∈ inherited, Drawn document param) (hw : w.parts? = some own)
    (ho : ∀ param ∈ own, Drawn document param) :
    Safe document (fun params _ => ∀ param ∈ params, Drawn document param)
      (merge document scope v w) := by
  refine (safe_itemsOf hw).bind fun mine _ hmine => ?_
  subst hmine
  refine (Safe.mapM fun param hp => safe_identity chains (ho param hp)).bind fun overridden _ _ => ?_
  refine (safe_itemsOf hv).bind fun given _ hgiven => ?_
  subst hgiven
  have test (param : Json) (hp : param ∈ given) : Safe document Anything (do
      return !overridden.contains (← identity document scope param)) :=
    (safe_identity chains (hi param hp)).bind fun _ _ _ => .pure fun _ => trivial
  refine (Safe.filterM test).bind fun kept _ sub => .pure fun _ param hp => ?_
  exact (List.mem_append.1 hp).elim (fun hk => hi param (sub hk)) (ho param)

end

/-- The handles of all groups stay in the document. -/
def Groups.StayInside (g : Groups) : Prop := ∀ ref ∈ g.refs, ref.isRemote = false

theorem Groups.StayInside.add {g : Groups} {ref : Ref} (h : g.StayInside)
    (here : ref.isRemote = false) (place : ParameterPlace) : (g.add place ref).StayInside := by
  intro known hk
  have cases : known ∈ g.refs ∨ known = ref := by
    cases place <;> simp only [Groups.add, Groups.refs, List.mem_append, List.mem_singleton] at hk ⊢ <;>
      tauto
  rcases cases with hk | rfl
  · exact h known hk
  · exact here

/-- A parameter has a place if its model was resolved from a node. -/
theorem guards_placeOf {v : Json} {p : Progress} (hp : p.registry.Sourced document)
    (h : p.registry.Rooted → v.isObject = true) :
    Guards document Anything ((placeOf scope v).run.run p) := by
  by_cases object : v.isObject = true
  · exact safe_placeOf object p hp
  · unfold placeOf
    simp only [object]
    exact .inr fun rooted => object (h rooted)

theorem safe_into (hself : self.Safe document) (h : Drawn document node) {groups : Groups}
    (inside : groups.StayInside) :
    Safe document (fun g _ => g.StayInside) (resolveInto self scope groups node) := by
  refine .ite (fun _ => .malformed_bind) fun complete => ?_
  refine (hself _ _ h).bind_run fun out _ q _ hq settled => ?_
  have sourced := settled.sourced h
  have registers : Safe document Anything (assertContent node out.result scope) :=
    .assert fun k hk => ⟨(sourced k hk).1, fun _ => (sourced k hk).2⟩
  refine (registers q hq).bind fun found t run ht _ => ?_
  obtain ⟨s, registered, rfl⟩ := runs_assert.1 run
  have other : node.isObject = true → Schema.formOf node (some .parameter) ≠ .schema := by
    intro object schema
    have plain := Schema.plain_of_formOf schema nofun
    simp only [object, plain, Bool.true_and, Bool.not_false, Bool.not_eq_true', Bool.not_eq_false,
      Bool.and_eq_true] at complete
    exact Schema.formOf_ne_schema complete.1 complete.2 schema
  split
  · exact ((Safe.notify _).bind fun _ _ _ => .pure fun _ => inside) _ ht
  · next m hm =>
    obtain ⟨here, rooted⟩ := settled.registered h hq other registered hm
    exact (guards_placeOf ht rooted).bind fun place _ _ hq _ => ⟨hq, inside.add here place⟩

theorem safe_from (hself : self.Safe document) (i : Nat) {params : List Json}
    (h : ∀ param ∈ params, Drawn document param) {groups : Groups} (inside : groups.StayInside) :
    Safe document (fun g _ => g.StayInside) (resolveFrom self scope i params groups) := by
  induction params generalizing i groups with
  | nil => exact .pure fun _ => inside
  | cons param rest ih =>
    obtain ⟨first, others⟩ := List.forall_mem_cons.1 h
    exact (safe_into hself first inside).bind fun _ _ more => ih _ others more

theorem firstTruthy_mem {v : Json} {rest : List Json} : firstTruthy (v :: rest) ∈ v :: rest := by
  induction rest generalizing v with
  | nil => exact List.mem_singleton_self v
  | cons w rest ih =>
    rw [firstTruthy]
    split
    · exact List.mem_cons_self
    · exact List.mem_cons_of_mem _ ih
    · nofun

section

variable (orderly : document.Orderly)
include orderly

/-- The schema of a parameter is fit, and so are its items. -/
theorem safe_schemaOf_source (h : m.Sourced document) :
    Safe document (fun schema _ => (schema.getD (.obj [])).Fit ∧
        (((schema.getD (.obj [])).get "items").isObject = true →
          ((schema.getD (.obj [])).get "items").Fit))
      (schemaOf (if m.source.truthy then m.source else .obj [])) := by
  have empty : Safe document (fun schema _ => (schema.getD (.obj [])).Fit ∧
      (((schema.getD (.obj [])).get "items").isObject = true →
        ((schema.getD (.obj [])).get "items").Fit)) (schemaOf (.obj [])) :=
    fun p hp => ⟨hp, by decide, nofun⟩
  rcases h.source with none | ⟨object, drawn⟩
  · rw [none]
    exact empty
  split
  swap
  · exact empty
  refine (safe_schemaOf drawn object orderly).imp fun schema _ hs => ?_
  cases schema with
  | none => exact ⟨by decide, nofun⟩
  | some v =>
    have hv := hs v rfl
    exact ⟨hv.fit orderly, fun _ => (hv.value (by decide)).fit orderly⟩

/-- The format and the enumeration of a parameter can be read back for its field. -/
theorem safe_fieldOf (h : m.Sourced document) : Safe document Anything (fieldOf m) := by
  unfold fieldOf
  dsimp only
  refine (safe_schemaOf_source orderly h).bind fun schema _ hs => ?_
  generalize schema.getD (.obj []) = v at hs
  obtain ⟨fit, inner⟩ := hs
  have items : (if (v.get "items").isObject then v.get "items" else .obj []).Fit := by
    split
    · next object => exact inner object
    · decide
  generalize (if (v.get "items").isObject then v.get "items" else .obj []) = w at items
  have formats : ∀ x ∈ [m.subtype, v.get "format", w.get "format"], x.isOptionalText = true := by
    simpa using ⟨h.subtype, fit.text "format" (by decide), items.text "format" (by decide)⟩
  have enums : ∀ y ∈ [m.enum, v.get "enum"], y.isOptionalList = true := by
    simpa using ⟨h.enum, fit.enum⟩
  have format := formats _ firstTruthy_mem
  have enum := enums _ firstTruthy_mem
  generalize firstTruthy [m.subtype, v.get "format", w.get "format"] = x at format
  generalize firstTruthy [m.enum, v.get "enum"] = y at enum
  refine (Safe.fit (Shape.Checked.fits_seq.2 ⟨Shape.Checked.fits_map.2 ?_, ?_⟩)).bind
    fun _ _ _ => .pure fun _ => trivial
  · cases x with
    | null => exact ⟨_, rfl⟩
    | str s => exact ⟨_, rfl⟩
    | _ => cases format
  · cases y with
    | null => exact ⟨_, rfl⟩
    | arr items => exact ⟨_, rfl⟩
    | _ => cases enum

theorem safe_fieldsOf {refs : List Ref} (inside : ∀ ref ∈ refs, ref.isRemote = false) :
    Safe document Anything (fieldsOf scope refs) := by
  induction refs with
  | nil => exact .pure fun _ => trivial
  | cons ref rest ih =>
    obtain ⟨here, others⟩ := List.forall_mem_cons.1 inside
    refine Safe.registry.bind fun r _ hr => ?_
    have leads : Safe document (fun found _ => ∃ m, found.model = some m ∧ m.Sourced document)
        (lift (r.requireRef ref scope.location)) := by
      refine .lift (fun found hf _ => ?_) fun f => requireRef_error
      obtain ⟨name, m, -, rfl, hm⟩ := requireRef_model hf here
      exact ⟨m, rfl, hr.2.models hm⟩
    refine leads.bind fun found _ ⟨m, hm, sourced⟩ => ?_
    rw [hm]
    refine (safe_fieldOf orderly sourced).bind fun _ _ _ => ?_
    exact (ih others).bind fun _ _ _ => .pure fun _ => trivial

theorem safe_gather {refs : List Ref} (inside : ∀ ref ∈ refs, ref.isRemote = false)
    (name : String) : Safe document Anything (gather scope refs name) := by
  refine .ite (fun _ => .pure fun _ => trivial) fun _ => ?_
  refine (safe_fieldsOf orderly inside).bind fun fields _ _ => ?_
  refine (Safe.assert fun k hk => ?_).bind fun _ _ _ => .pure fun _ => trivial
  obtain rfl := Link.model.inj hk
  exact ⟨⟨⟨rfl, rfl⟩, .inl rfl⟩, nofun⟩

end

end Parameter

namespace Payload

variable (hself : self.Safe document)
include hself

theorem safe_registered (h : Drawn document node) (name : String) (array : Option Bool) :
    Safe document Anything (resolveRegistered self scope name node array) := by
  refine (hself _ _ h).bind fun out _ settled => ?_
  have sourced := settled.sourced h
  refine (Safe.assert fun k hk => ?_).bind fun _ _ _ => .pure fun _ => trivial
  exact ⟨(sourced k hk).1, fun _ => (sourced k hk).2⟩

theorem safe_resolve (h : Drawn document node) (name : String) :
    Safe document Anything (resolve self scope name node) := by
  unfold resolve
  refine .ite (fun _ => .pure fun _ => trivial) fun _ => .ite (fun _ => .pure fun _ => trivial)
    fun _ => .ite (fun _ => ?_) fun _ => safe_registered hself h _ _
  split
  · exact .malformed
  · next items hi =>
    have drawn : Drawn document items := Json.eq_of_nonNull hi ▸ h.value (by decide)
    exact .ite (fun _ => .pure fun _ => trivial) fun _ => safe_registered hself drawn _ _

end Payload

namespace Response

variable (hself : self.Safe document)
include hself

theorem safe_media (fit : node.Fit) (o : Occasion) (status : String) (headers : Dict String Ref)
    {entries : List (String × Json)} (h : ∀ entry ∈ entries, Drawn document (entry.2.get "schema")) :
    Safe document Anything (resolveMedia self scope o status headers node entries) := by
  induction entries with
  | nil => exact .pure fun _ => trivial
  | cons entry rest ih =>
    obtain ⟨first, others⟩ := List.forall_mem_cons.1 h
    refine .ite (fun _ => .malformed_bind) fun _ => ?_
    refine (Payload.safe_resolve hself first _).bind fun _ _ _ => ?_
    refine (Safe.fit fit.description).bind fun _ _ _ => ?_
    exact (ih others).bind fun _ _ _ => .pure fun _ => trivial

variable (orderly : document.Orderly) (chains : document.ChainsEnd)
include orderly chains

theorem safe_status (h : Drawn document node) (o : Occasion) (status : String) :
    Safe document Anything (resolveStatus document self scope o status node) := by
  refine (safe_dereference chains h).bind fun v _ ⟨_, drawn⟩ => ?_
  have fit := drawn.fit orderly
  refine (Header.safe_all hself orderly drawn).bind fun headers _ _ => .ite (fun truthy => ?_) ?_
  · have object := fit.content truthy
    cases hc : v.get "content" with
    | obj entries => exact safe_media hself fit o status headers fun entry he => drawn.media hc he
    | _ =>
      rw [hc] at object
      cases object
  · exact fun _ => (Safe.fit fit.description).bind fun _ _ _ => .pure fun _ => trivial

theorem safe_each (o : Occasion) {entries : List (String × Json)}
    (h : ∀ entry ∈ entries, Drawn document entry.2) :
    Safe document Anything (resolveEach document self scope o entries) := by
  induction entries with
  | nil => exact .pure fun _ => trivial
  | cons entry rest ih =>
    obtain ⟨first, others⟩ := List.forall_mem_cons.1 h
    refine (safe_status hself orderly chains first o entry.1).bind fun _ _ _ => ?_
    exact (ih others).bind fun _ _ _ => .pure fun _ => trivial

theorem safe_all (h : Drawn document node) (o : Occasion) :
    Safe document Anything
      (resolveAll document self scope o (orElse (node.get "responses") (.obj []))) := by
  unfold resolveAll
  split
  · next entries he =>
    rcases orElse_cases (node.get "responses") (.obj []) with ⟨-, same⟩ | other
    · have declared : node.get "responses" = .obj entries := same.symm.trans he
      exact safe_each hself orderly chains o fun entry hv => h.member (by decide) declared hv
    · obtain rfl : entries = [] := Json.obj.inj (he.symm.trans other)
      exact .pure fun _ => trivial
  · exact .malformed

end Response

namespace RequestBody

variable (hself : self.Safe document)
include hself

theorem safe_media (fit : node.Fit) (o : Occasion) (shared : Option Payload)
    {entries : List (String × Json)} (h : ∀ entry ∈ entries, Drawn document (entry.2.get "schema")) :
    Safe document Anything (resolveMedia self scope o node shared entries) := by
  induction entries generalizing shared with
  | nil => exact .pure fun _ => trivial
  | cons entry rest ih =>
    obtain ⟨first, others⟩ := List.forall_mem_cons.1 h
    have after (payload : Payload) : Safe document Anything (do
        let description ← Resolving.fit (descriptionOf node)
        let body : RequestBody := ⟨o.payloadName (some entry.1) none, .requestBody, payload.type,
          payload.ref, payload.array, (node.get "required").truthy, description, some entry.1⟩
        return body :: (← resolveMedia self scope o node (some payload) rest)) :=
      (Safe.fit fit.description).bind fun _ _ _ => (ih _ others).bind fun _ _ _ =>
        .pure fun _ => trivial
    refine .ite (fun _ => .malformed_bind) fun _ => ?_
    cases shared with
    | some payload => exact after payload
    | none => exact (Payload.safe_resolve hself first _).bind fun payload _ _ => after payload

theorem safe_all (orderly : document.Orderly) (chains : document.ChainsEnd)
    (h : Drawn document node) (o : Occasion) :
    Safe document Anything (resolveAll document self scope o node) := by
  refine (safe_dereference chains h).bind fun v _ ⟨_, drawn⟩ => ?_
  refine .ite (fun _ => .pure fun _ => trivial) fun _ => ?_
  split
  · next entries hc =>
    refine .ite (fun _ => .malformed_bind) fun _ => ?_
    exact safe_media hself (drawn.fit orderly) o none fun entry he => drawn.media hc he
  · exact .malformed

end RequestBody

namespace Method

theorem safe_claimName (name : String) : Safe document Anything (claimName name) :=
  fun _ hp => ⟨hp, trivial⟩

theorem safe_wantedName (verb path : String) {operationId : Json}
    (h : operationId.isOptionalText = true) :
    Safe document Anything (wantedName verb path operationId) := by
  unfold wantedName
  cases operationId with
  | null => exact .pure fun _ => trivial
  | str s => exact .ite (fun _ => .pure fun _ => trivial) fun _ => .pure fun _ => trivial
  | _ => cases h

theorem safe_tags (fit : node.Fit) :
    Safe document (fun tags _ => ∀ v ∈ tags, v.text?.isSome = true)
      (itemsOf (orElse (node.get "tags") (.arr []))) := by
  rcases orElse_cases (node.get "tags") (.arr []) with ⟨truthy, same⟩ | other
  · have texts := fit.tags truthy
    rw [same]
    cases hp : (node.get "tags").parts? with
    | none =>
      rw [hp] at texts
      cases texts
    | some parts =>
      rw [hp] at texts
      refine (safe_itemsOf hp).imp fun tags _ ht => ?_
      subst ht
      exact List.all_eq_true.1 texts
  · rw [other]
    refine (safe_itemsOf rfl).imp fun tags _ ht => ?_
    subst ht
    nofun

theorem fits_text {v : Json} (h : v.text?.isSome = true) : (Shape.text v).Fits := by
  cases v with
  | str s => exact ⟨s, rfl⟩
  | _ => cases h

/-- Security requirements can be taken over. -/
theorem fits_requirements {v : Json} (h : v.areRequirements = true) :
    (Shape.list (Shape.dict (Shape.list Shape.text)) (orElse v (.arr []))).Fits := by
  have scopes {v : Json} (hv : v.areTexts = true) : (Shape.list Shape.text v).Fits := by
    cases v with
    | arr items => exact Shape.fits_list fun item hi => fits_text (List.all_eq_true.1 hv item hi)
    | _ => cases hv
  have requirement {v : Json} (hv : v.isRequirement = true) :
      (Shape.dict (Shape.list Shape.text) v).Fits := by
    cases v with
    | obj entries =>
      exact Shape.fits_dict fun entry he =>
        scopes (List.all_eq_true.1 hv entry.2 (List.mem_map_of_mem he))
    | _ => cases hv
  rcases orElse_cases v (.arr []) with ⟨truthy, same⟩ | other
  · rw [same]
    unfold Json.areRequirements at h
    rw [truthy] at h
    cases v with
    | arr items =>
      exact Shape.fits_list fun item hi => requirement (List.all_eq_true.1 h item hi)
    | _ => cases h
  · rw [other]
    exact ⟨[], rfl⟩

theorem fits_readHeader (fit : node.Fit) {tags : List Json}
    (texts : ∀ v ∈ tags, v.text?.isSome = true) {security : Json}
    (requirements : (Shape.list (Shape.dict (Shape.list Shape.text)) security).Fits) :
    (readHeader node tags security).Fits := by
  have text (key : String) (hk : key ∈ Json.textKeys) :
      (Shape.optional Shape.text (node.get key)).Fits := Shape.fits_optional_text (fit.text key hk)
  unfold readHeader
  simp only [Shape.Checked.fits_seq, Shape.Checked.fits_map, Shape.Checked.fits_under]
  refine ⟨⟨⟨⟨?_, ?_⟩, ?_⟩, ?_⟩, requirements⟩
  · exact text "operationId" (by decide)
  · exact text "summary" (by decide)
  · exact text "description" (by decide)
  · exact Shape.fits_list fun v hv => fits_text (texts v hv)

/-- An operation of a path is resolved, or fails as is foreseen. -/
theorem safe_resolve (hself : self.Safe document) (orderly : document.Orderly)
    (chains : document.ChainsEnd) (verb : Verb) (path : String) {item : Json}
    (hi : item.isObject = true ∧ Drawn document item) (h : Drawn document node) :
    Safe document Anything (resolve document self scope verb path item node) := by
  have fit := h.fit orderly
  obtain ⟨inherited, given, before⟩ := hi.2.parameters orderly
  obtain ⟨own, mine, after⟩ := h.parameters orderly
  have security : (Shape.list (Shape.dict (Shape.list Shape.text)) (securityOf document node)).Fits := by
    unfold securityOf
    dsimp only
    split
    · exact fits_requirements fit.security
    · exact fits_requirements orderly.security
  refine .ite (fun _ => .malformed_bind) fun _ => ?_
  refine (safe_wantedName _ _ (fit.text "operationId" (by decide))).bind fun wanted _ _ => ?_
  refine (safe_claimName wanted).bind fun name _ _ => ?_
  refine (safe_tags fit).bind fun tags _ texts => .ite (fun other => ?_) fun _ => ?_
  · simp [hi.1] at other
  refine (Parameter.safe_merge chains given before mine after).bind fun params _ hp => ?_
  have nothing : Parameter.Groups.StayInside ⟨[], [], []⟩ := nofun
  refine (Parameter.safe_from hself 0 hp nothing).bind fun groups _ hg => ?_
  refine (Safe.fit (fits_readHeader fit texts security)).bind fun header _ _ => ?_
  have gathered (refs : List Ref) (sub : refs ⊆ groups.refs) (name : String) :
      Safe document Anything (Parameter.gather scope refs name) :=
    Parameter.safe_gather orderly (fun ref hr => hg ref (sub hr)) name
  refine (gathered groups.path (by simp [Parameter.Groups.refs]) _).bind fun _ _ _ => ?_
  refine (gathered groups.query (by simp [Parameter.Groups.refs]) _).bind fun _ _ _ => ?_
  refine (gathered groups.header (by simp [Parameter.Groups.refs]) _).bind fun _ _ _ => ?_
  refine (Response.safe_all hself orderly chains h _).bind fun _ _ _ => .ite (fun _ => ?_) fun _ => ?_
  · exact .pure fun _ => trivial
  · have body : Drawn document (node.get "requestBody") := h.value (by decide)
    exact (RequestBody.safe_all hself orderly chains body _).bind fun _ _ _ =>
      .pure fun _ => trivial

end Method

end ApiGraph
