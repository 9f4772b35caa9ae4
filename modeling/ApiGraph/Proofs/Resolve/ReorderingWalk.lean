import ApiGraph.Proofs.Resolve.ReorderingComponents
import ApiGraph.Resolve.Walk

/-! Documents that are the same but for the order of keys are walked side by side: their paths,
operations, responses and media types come in the same order, and two contents of a request body are
the same in one document if they are in the other. -/

namespace ApiGraph

open Resolving

variable {document document' node node' : Json} {walked : Bool} {scope : Scope}
  {self self' : Resolver} {r r' : Registry}

theorem rel_registeredNode (hr : r.Kin r') (ref : String) :
    Option.Rel (Json.Kin false) (registeredNode r ref) (registeredNode r' ref) := by
  have found := hr.resolve ref
  unfold registeredNode
  generalize r.resolve ref = a at found
  generalize r'.resolve ref = b at found
  cases found with
  | none => exact .none
  | @some x y found =>
    have model := found.model
    obtain ⟨_, a⟩ := x
    obtain ⟨_, b⟩ := y
    cases model with
    | none => exact .none
    | @some m m' hm =>
      change Option.Rel _ (if m.source.isObject = true then some m.source else none)
        (if m'.source.isObject = true then some m'.source else none)
      rw [hm.source.isObject_eq]
      split
      · exact .some hm.source
      · exact .none

section

variable (hdoc : Json.Kin false document document')
include hdoc

/-- Chains of references lead to nodes that are the same but for the order of keys. -/
theorem matches_followChain (hr : r.Kin r') (location : String) (fuel : Nat)
    (h : Json.Kin false node node') :
    Matches (Json.Kin false) (followChain document r location fuel node)
      (followChain document' r' location fuel node') := by
  induction fuel generalizing node node' with
  | zero => exact .fail _
  | succ fuel ih =>
    unfold followChain
    rw [h.isObject_eq, h.typeName_eq, h.get?_literal (k := "$ref") (by decide)]
    split
    · exact .fail _
    split
    · exact .ok h
    · next ref _ =>
      split
      · exact .fail _
      have found := rel_registeredNode hr ref
      generalize registeredNode r ref = a at found
      generalize registeredNode r' ref = b at found
      cases found with
      | some found => exact .ok found
      | none =>
        have target := Pointer.rel_resolve hdoc ref
        dsimp only
        generalize Pointer.resolve document ref = a at target
        generalize Pointer.resolve document' ref = b at target
        cases target with
        | none => exact .fail _
        | some target => exact ih target
    · exact .fail _

theorem parallel_dereference (h : Json.Kin walked node node') :
    Parallel (Json.Kin false) (dereference document scope node)
      (dereference document' scope node') := by
  refine Parallel.registry.bind fun r r' hr => .lift ?_
  rw [hdoc.size_eq]
  exact matches_followChain hdoc hr _ _ h.loosen

end

/-- A list, or the parts of what is walked through. -/
theorem parallel_itemsOf (h : Json.Kin true node node') :
    Parallel (List.Forall₂ (Json.Kin false)) (itemsOf node) (itemsOf node') := by
  have parts := h.parts?
  unfold itemsOf
  generalize node.parts? = a at parts
  generalize node'.parts? = b at parts
  cases parts with
  | none => exact .stop _
  | some parts => exact .pure parts

namespace Payload

variable (hself : self.Parallel self') (h : Json.Kin walked node node')
include hself h

theorem parallel_registered (name : String) (array : Option Bool) :
    Parallel Eq (resolveRegistered self scope name node array)
      (resolveRegistered self' scope name node' array) := by
  refine (hself _ _ _ h.loosen).bind fun _ _ hout => ?_
  refine (Parallel.assert h.loosen hout.result _ _ _).bind fun _ _ hr => .pure ?_
  rw [hr.ref]

theorem parallel_resolve (name : String) :
    Parallel Eq (resolve self scope name node) (resolve self' scope name node') := by
  have items := (h.get "items").loosen.nonNull
  unfold resolve primitive
  rw [h.isNull_eq, Schema.isPrimitive_eq h, h.isObject_eq, h.has_eq, Schema.declaredType_eq h]
  refine .ite (fun _ => .pure rfl) fun _ => .ite (fun _ => .pure rfl) fun _ => .ite (fun _ => ?_) ?_
  · generalize (node.get "items").nonNull = a at items
    generalize (node'.get "items").nonNull = b at items
    cases items with
    | none => exact .malformed rfl rfl
    | some items =>
      dsimp only
      rw [Schema.isPrimitive_eq items, Schema.declaredType_eq items]
      exact .ite (fun _ => .pure rfl) fun _ => parallel_registered hself items _ _
  · exact fun _ => parallel_registered hself h _ _

end Payload

namespace Response

variable (hself : self.Parallel self')
include hself

theorem parallel_media (o : Occasion) (status : String) (headers : Dict String Ref)
    (h : Json.Kin walked node node') {ds es : List (String × Json)} (paired : Json.Paired ds es) :
    Parallel Eq (resolveMedia self scope o status headers node ds)
      (resolveMedia self' scope o status headers node' es) := by
  induction paired with
  | nil => exact .pure rfl
  | @cons d e ds es first _ ih =>
    obtain ⟨type, media⟩ := d
    obtain ⟨_, media'⟩ := e
    obtain ⟨rfl, hm⟩ : type = _ ∧ Json.Kin false media media' := first
    unfold resolveMedia
    rw [hm.isObject_eq, descriptionOf_eq h]
    refine .ite (fun _ => .malformed_bind rfl) fun _ => ?_
    refine (Payload.parallel_resolve hself (hm.get "schema") _).bind_eq fun payload => ?_
    exact (Parallel.fit (.of_eq rfl)).bind_eq fun _ => ih.bind_eq fun _ => .pure rfl

variable (hdoc : Json.Kin false document document')
include hdoc

theorem parallel_status (o : Occasion) (status : String) (h : Json.Kin walked node node') :
    Parallel Eq (resolveStatus document self scope o status node)
      (resolveStatus document' self' scope o status node') := by
  refine (parallel_dereference hdoc h).bind fun v w hvw => ?_
  refine (Header.parallel_all hself hdoc (hvw.walk (by decide))).bind_eq fun headers => ?_
  have content := hvw.walk (k := "content") (by decide)
  dsimp only
  rw [content.truthy_eq, descriptionOf_eq hvw]
  refine .ite (fun _ => ?_) fun _ => (Parallel.fit (.of_eq rfl)).bind_eq fun _ => .pure rfl
  exact (parallel_membersOf content).bind fun _ _ paired => parallel_media hself o _ _ hvw paired

theorem parallel_each (o : Occasion) {ds es : List (String × Json)} (paired : Json.Paired ds es) :
    Parallel Eq (resolveEach document self scope o ds)
      (resolveEach document' self' scope o es) := by
  induction paired with
  | nil => exact .pure rfl
  | @cons d e ds es first _ ih =>
    obtain ⟨status, node⟩ := d
    obtain ⟨_, node'⟩ := e
    obtain ⟨rfl, hn⟩ : status = _ ∧ Json.Kin false node node' := first
    exact (parallel_status hself hdoc o _ hn).bind_eq fun _ => ih.bind_eq fun _ => .pure rfl

theorem parallel_all (o : Occasion) {responses responses' : Json}
    (h : Json.Kin true responses responses') :
    Parallel Eq (resolveAll document self scope o responses)
      (resolveAll document' self' scope o responses') := by
  cases h with
  | obj order length values literal =>
    exact parallel_each hself hdoc o (Json.Kin.obj order length values literal).paired
  | _ => exact .malformed rfl rfl

end Response

namespace RequestBody

variable (hself : self.Parallel self')

/-- Two contents are the same in both documents or in none. -/
theorem distinctShapes_eq {ds es : List (String × Json)} (paired : Json.Paired ds es) :
    distinctShapes ds = distinctShapes es := by
  have shape {media media' : Json} (h : Json.Kin false media media') :
      (shapeOf media).canonical = (shapeOf media').canonical := by
    unfold shapeOf
    rw [h.isObject_eq]
    split
    · exact (h.get "schema").canonical_eq
    · exact h.canonical_eq
  have texts : ds.map (fun p => (shapeOf p.2).canonical) =
      es.map fun p => (shapeOf p.2).canonical := by
    induction paired with
    | nil => rfl
    | cons first _ ih => rw [List.map_cons, List.map_cons, shape first.2, ih]
  rw [distinctShapes, distinctShapes, texts]

include hself

theorem parallel_media (o : Occasion) (shared : Option Payload) (h : Json.Kin walked node node')
    {ds es : List (String × Json)} (paired : Json.Paired ds es) :
    Parallel Eq (resolveMedia self scope o node shared ds)
      (resolveMedia self' scope o node' shared es) := by
  induction paired generalizing shared with
  | nil => exact .pure rfl
  | @cons d e ds es first _ ih =>
    obtain ⟨type, media⟩ := d
    obtain ⟨_, media'⟩ := e
    obtain ⟨rfl, hm⟩ : type = _ ∧ Json.Kin false media media' := first
    unfold resolveMedia
    rw [hm.isObject_eq, descriptionOf_eq h, (h.get "required").truthy_eq]
    refine .ite (fun _ => .malformed_bind rfl) fun _ => ?_
    cases shared with
    | some payload =>
      refine Parallel.bind_eq (.pure rfl) fun payload => (Parallel.fit (.of_eq rfl)).bind_eq ?_
      exact fun _ => (ih _).bind_eq fun _ => .pure rfl
    | none =>
      refine (Payload.parallel_resolve hself (hm.get "schema") _).bind_eq fun payload => ?_
      exact (Parallel.fit (.of_eq rfl)).bind_eq fun _ => (ih _).bind_eq fun _ => .pure rfl

theorem parallel_all (hdoc : Json.Kin false document document') (o : Occasion)
    (h : Json.Kin walked node node') :
    Parallel Eq (resolveAll document self scope o node)
      (resolveAll document' self' scope o node') := by
  refine (parallel_dereference hdoc h).bind fun v w hvw => ?_
  have content := hvw.walk (k := "content") (by decide)
  dsimp only
  rw [content.truthy_eq]
  refine .ite (fun _ => .pure rfl) fun _ => ?_
  generalize v.get "content" = a at content
  generalize w.get "content" = b at content
  cases content with
  | obj order length values literal =>
    have paired := (Json.Kin.obj order length values literal).paired
    dsimp only
    rw [distinctShapes_eq paired]
    refine .ite (fun _ => .malformed_bind rfl) fun _ => ?_
    exact parallel_media hself o _ hvw paired
  | _ => exact .malformed rfl rfl

end RequestBody

namespace Method

theorem kin_orElse (h : Json.Kin walked node node') (other : Json) :
    Json.Kin walked (orElse node other) (orElse node' other) := by
  rw [orElse, orElse, h.truthy_eq]
  split
  · exact h
  · exact .refl _

end Method

namespace Parameter

section

variable (hdoc : Json.Kin false document document')
include hdoc

theorem parallel_identity (h : Json.Kin walked node node') :
    Parallel Eq (identity document scope node) (identity document' scope node') := by
  have follow : Parallel Eq (do
      let target ← dereference document scope node
      return (((target.get? "name").map Json.shown).getD "",
        ((target.get? "in").map Json.shown).getD "")) (do
      let target ← dereference document' scope node'
      return (((target.get? "name").map Json.shown).getD "",
        ((target.get? "in").map Json.shown).getD "")) := by
    refine (parallel_dereference hdoc h).bind fun v w hvw => .pure ?_
    rw [hvw.get?_literal (k := "name") (by decide), hvw.get?_literal (k := "in") (by decide)]
  unfold identity
  dsimp only
  rw [h.get_literal (k := "$ref") (by decide)]
  split
  · exact .ite (fun _ => follow) fun _ => .pure rfl
  · exact follow

/-- The same parameters of a path are overridden. -/
theorem parallel_merge {inherited inherited' own own' : Json}
    (hi : Json.Kin true inherited inherited') (ho : Json.Kin true own own') :
    Parallel (List.Forall₂ (Json.Kin false)) (merge document scope inherited own)
      (merge document' scope inherited' own') := by
  refine (parallel_itemsOf ho).bind fun vs ws hvs => ?_
  have identities : Parallel (List.Forall₂ Eq) (vs.mapM (identity document scope))
      (ws.mapM (identity document' scope)) :=
    .mapM (hvs.imp fun _ _ h => parallel_identity hdoc h)
  refine (identities.imp fun _ _ h => List.forall₂_eq_eq_eq ▸ h).bind_eq fun overridden => ?_
  refine (parallel_itemsOf hi).bind fun xs ys hxs => ?_
  refine (Parallel.filterM (hxs.imp fun _ _ h => ⟨h, ?_⟩)).bind fun _ _ hk =>
    .pure (List.rel_append hk hvs)
  exact (parallel_identity hdoc h).bind_eq fun _ => .pure rfl

end

theorem parallel_into (hself : self.Parallel self') (groups : Groups)
    (h : Json.Kin walked node node') :
    Parallel Eq (resolveInto self scope groups node) (resolveInto self' scope groups node') := by
  unfold resolveInto
  rw [h.isObject_eq, h.has_eq, h.has_eq, h.has_eq]
  refine .ite (fun _ => .malformed_bind rfl) fun _ => (hself _ _ _ h.loosen).bind fun _ _ hout => ?_
  refine (Parallel.assert h.loosen hout.result _ _ _).bind ?_
  rintro ⟨ref, a⟩ ⟨_, b⟩ ⟨rfl, model⟩
  cases model with
  | none => exact (Parallel.notify (.warning _)).bind fun _ _ _ => .pure rfl
  | some hm => exact (parallel_placeOf hm.source).bind_eq fun _ => .pure rfl

theorem parallel_from (hself : self.Parallel self') (i : Nat) {vs ws : List Json}
    (pairs : List.Forall₂ (Json.Kin false) vs ws) (groups : Groups) :
    Parallel Eq (resolveFrom self scope i vs groups) (resolveFrom self' scope i ws groups) := by
  induction pairs generalizing i groups with
  | nil => exact .pure rfl
  | cons first _ ih => exact (parallel_into hself groups first).bind_eq fun _ => ih _ _

theorem kin_firstTruthy {vs ws : List Json} (pairs : List.Forall₂ (Json.Kin false) vs ws) :
    Json.Kin false (firstTruthy vs) (firstTruthy ws) := by
  have cons (v w : Json) (rest : List Json) :
      firstTruthy (v :: w :: rest) = if v.truthy then v else firstTruthy (w :: rest) := rfl
  induction pairs with
  | nil => exact .null
  | cons first rest ih =>
    cases rest with
    | nil => exact first
    | cons second rest =>
      rw [cons, cons, first.truthy_eq]
      split
      · exact first
      · exact ih

theorem parallel_fieldOf {m m' : Model} (hm : m.Kin m') :
    Parallel Field.Kin (fieldOf m) (fieldOf m') := by
  have source : Json.Kin false (if m.source.truthy then m.source else .obj [])
      (if m'.source.truthy then m'.source else .obj []) := by
    rw [hm.source.truthy_eq]
    split
    · exact hm.source
    · exact .refl _
  unfold fieldOf
  dsimp only
  generalize (if m.source.truthy = true then m.source else .obj []) = v at source
  generalize (if m'.source.truthy = true then m'.source else .obj []) = w at source
  refine (parallel_schemaOf source).bind fun a b hab => ?_
  have schema : Json.Kin false (a.getD (.obj [])) (b.getD (.obj [])) := by
    cases hab with
    | none => exact .refl _
    | some h => exact h
  generalize a.getD (.obj []) = s at schema
  generalize b.getD (.obj []) = t at schema
  have items : Json.Kin false (if (s.get "items").isObject then s.get "items" else .obj [])
      (if (t.get "items").isObject then t.get "items" else .obj []) := by
    rw [(schema.get "items").isObject_eq]
    split
    · exact (schema.get "items").loosen
    · exact .refl _
  have format := kin_firstTruthy (.cons hm.subtype (.cons (schema.get "format").loosen
    (.cons (items.get "format").loosen .nil)))
  have enum := kin_firstTruthy (.cons hm.enum (.cons (schema.get "enum").loosen .nil))
  generalize firstTruthy [m.subtype, _, _] = x at format
  generalize firstTruthy [m'.subtype, _, _] = y at format
  generalize firstTruthy [m.enum, _] = xs at enum
  generalize firstTruthy [m'.enum, _] = ys at enum
  refine (Parallel.fit (R := Both (Json.Kin false) (Json.Kin false)) ?_).bind ?_
  · refine .both (.map (R := Json.Kin false) ?_ fun _ _ hx _ _ hy => ⟨hx, hy⟩) ?_
    · cases format with
      | null => exact .fits .null
      | str s => exact .fits (.str s)
      | _ => exact .fails
    · cases enum with
      | null => exact .fits .null
      | arr length items => exact .fits (.arr length items)
      | _ => exact .fails
  · rintro ⟨subtype, enum⟩ ⟨subtype', enum'⟩ ⟨hsubtype, henum⟩
    dsimp only
    rw [source.get?_literal (k := "name") (by decide), (source.get "required").truthy_eq, hm.name]
    exact .pure {
      name := rfl
      kind := hm.kind
      type := hm.type
      subtype := hsubtype
      enum := henum
      array := hm.array
      required := rfl
      default := hm.default
      description := hm.description
      validations := hm.validations
      extras := hm.extras }

theorem parallel_fieldsOf (refs : List Ref) :
    Parallel (Both (List.Forall₂ Field.Kin) (List.Forall₂ Link.Alike)) (fieldsOf scope refs)
      (fieldsOf scope refs) := by
  induction refs with
  | nil => exact .pure ⟨.nil, .nil⟩
  | cons ref rest ih =>
    refine Parallel.registry.bind fun r r' hr => (Parallel.lift (hr.requireRef ref _)).bind ?_
    rintro ⟨_, a⟩ ⟨_, b⟩ ⟨rfl, model⟩
    cases model with
    | none => exact .stop _
    | some hm =>
      refine (parallel_fieldOf hm).bind fun _ _ hf => ih.bind fun _ _ hrest => .pure ⟨?_, ?_⟩
      · exact .cons hf hrest.1
      · exact List.rel_append hm.dependencies hrest.2

theorem parallel_gather (params : List Ref) (name : String) :
    Parallel Eq (gather scope params name) (gather scope params name) := by
  refine .ite (fun _ => .pure rfl) fun _ => (parallel_fieldsOf params).bind fun _ _ hf => ?_
  refine (Parallel.assert .null (.model ?_) _ _ _).bind fun _ _ hr => .pure (congrArg some hr.ref)
  exact { Model.Kin.blank name .methodParam with fields := hf.1, dependencies := hf.2 }

end Parameter

namespace Method

theorem parallel_claimName (name : String) : Parallel Eq (claimName name) (claimName name) := by
  intro p p' hp
  have free : Registry.freeVariant p.methodNames name =
      Registry.freeVariant p'.methodNames name := by
    rw [hp.methodNames]
  exact ⟨.ok free, hp.registry, hp.notices, congrArg₂ List.cons free hp.methodNames⟩

theorem parallel_wantedName (verb path : String) (h : Json.Kin walked node node') :
    Parallel Eq (wantedName verb path node) (wantedName verb path node') := by
  unfold wantedName
  dsimp only
  rw [h.truthy_eq]
  refine .ite (fun _ => ?_) fun _ => .pure rfl
  cases h with
  | str s => exact .pure rfl
  | _ => exact .stop _

/-- Security requirements that name the same schemes with the same scopes. -/
def Header.Kin (a b : Header) : Prop :=
  b = { a with security := b.security } ∧
    List.Forall₂ (fun r r' => ∀ k, Json.under k r = Json.under k r') a.security b.security

theorem agrees_readHeader (h : Json.Kin walked node node') (tags : List Json)
    {security security' : Json} (hs : Json.Kin false security security') :
    (readHeader node tags security).Agrees Header.Kin (readHeader node' tags security') := by
  have text (key : String) := Shape.optional_text_eq (h.get key)
  have requirements := Shape.agrees_list
    (fun _ _ h => Shape.agrees_dict (fun _ _ h => Shape.list_eq (fun _ _ => Shape.text_eq) h) h) hs
  unfold readHeader
  dsimp only
  rw [text, text, text]
  refine .both (.both (R := Eq) (.both (R := Eq) (.both (R := Eq) (.map (R := Eq) (.of_eq rfl) ?_)
    (.of_eq rfl)) (.of_eq rfl)) (.of_eq rfl)) (requirements.under _)
  rintro operationId _ rfl summary _ rfl description _ rfl tags _ rfl security security' hs
  exact ⟨rfl, hs⟩

theorem Header.Kin.alike {a b : Header} (h : a.Kin b) :
    List.Forall₂ (fun r r' => Json.Alike (requirementJson r) (requirementJson r')) a.security
      b.security := by
  refine h.2.imp fun r r' hr => ?_
  have same (k : String) : Json.under k (r.map fun p => (p.1, Json.arr (p.2.map .str))) =
      Json.under k (r'.map fun p => (p.1, Json.arr (p.2.map .str))) := by
    have written := Json.under_map fun scopes : List String => Json.arr (scopes.map .str)
    rw [written, written, hr]
  refine .obj (fun k => congrArg List.length (same k)) fun k i v w hv hw => ?_
  rw [same] at hv
  exact .of_eq (Option.some.inj (hv.symm.trans hw))

section

variable (hdoc : Json.Kin false document document') (h : Json.Kin walked node node')
include hdoc h

theorem kin_securityOf :
    Json.Kin false (securityOf document node) (securityOf document' node') := by
  have own := (h.get "security").loosen
  have common := (hdoc.get "security").loosen
  unfold securityOf
  dsimp only
  rw [h.has_eq]
  split
  · exact kin_orElse own _
  · exact kin_orElse common _

/-- Operations of the same path are resolved side by side. -/
theorem parallel_resolve (hself : self.Parallel self') (verb : Verb) (path : String)
    {item item' : Json} (hi : Json.Kin false item item') :
    Parallel Method.Kin (resolve document self scope verb path item node)
      (resolve document' self' scope verb path item' node') := by
  unfold resolve
  rw [h.isObject_eq, hi.isObject_eq, h.get_literal (k := "tags") (by decide)]
  refine .ite (fun _ => .malformed_bind rfl) fun _ => ?_
  refine (parallel_wantedName _ _ (h.get "operationId")).bind_eq fun wanted => ?_
  refine (parallel_claimName wanted).bind_eq fun name => ?_
  have tags : Parallel Eq (itemsOf (orElse (node'.get "tags") (.arr [])))
      (itemsOf (orElse (node'.get "tags") (.arr []))) := by
    unfold itemsOf
    split
    · exact .pure rfl
    · exact .stop _
  refine tags.bind_eq fun tags => .ite (fun _ => .stop_bind _) fun _ => ?_
  refine (Parameter.parallel_merge hdoc (kin_orElse (hi.walk (by decide)) _)
    (kin_orElse (h.walk (by decide)) _)).bind fun params params' hparams => ?_
  refine (Parameter.parallel_from hself 0 hparams _).bind_eq fun groups => ?_
  refine (Parallel.fit (agrees_readHeader h tags (kin_securityOf hdoc h))).bind ?_
  intro header header' hheader
  have security := hheader.alike
  obtain ⟨operationId, summary, description, tags, s⟩ := header
  obtain ⟨_, _, _, _, s'⟩ := header'
  obtain ⟨rfl, rfl, rfl, rfl, -⟩ := Header.mk.inj hheader.1
  refine (Parameter.parallel_gather _ _).bind_eq fun pathObject => ?_
  refine (Parameter.parallel_gather _ _).bind_eq fun queryObject => ?_
  refine (Parameter.parallel_gather _ _).bind_eq fun headerObject => ?_
  refine (Response.parallel_all hself hdoc _ (kin_orElse (h.walk (by decide)) _)).bind_eq ?_
  intro responses
  rw [(h.get "requestBody").isNull_eq, (h.get "deprecated").truthy_eq]
  refine .ite (fun _ => .pure ⟨rfl, security⟩) fun _ => ?_
  refine (RequestBody.parallel_all hself hdoc _ (h.get "requestBody")).bind_eq fun bodies => ?_
  exact .pure ⟨rfl, security⟩

end

end Method

namespace Walk

section

variable (hdoc : Json.Kin false document document') (hself : self.Parallel self')
include hdoc hself

theorem parallel_operations (path : String) {item item' : Json} (hi : Json.Kin false item item')
    (verbs : List Verb) :
    Parallel (List.Forall₂ Method.Kin) (operations document self scope path item verbs)
      (operations document' self' scope path item' verbs) := by
  induction verbs with
  | nil => exact .pure .nil
  | cons verb rest ih =>
    have operation := (hi.get verb.word).nonNull
    unfold operations
    generalize (item.get verb.word).nonNull = a at operation
    generalize (item'.get verb.word).nonNull = b at operation
    cases operation with
    | none => exact ih
    | some operation =>
      refine (Method.parallel_resolve hdoc operation hself verb path hi).bind fun m m' hm => ?_
      refine (Parallel.notify (.entity _ (.method hm))).bind fun _ _ _ => ?_
      exact ih.bind fun _ _ hrest => .pure (.cons hm hrest)

omit hdoc hself in
theorem pathHeader_eq (h : Json.Kin walked node node') : pathHeader node = pathHeader node' := by
  rw [pathHeader, pathHeader, Shape.withDefault_text_eq h, descriptionOf_eq h]

theorem parallel_path (name : String) (h : Json.Kin walked node node') :
    Parallel (Both Eq (List.Forall₂ Method.Kin)) (path document self scope name node)
      (path document' self' scope name node') := by
  refine (parallel_dereference hdoc h).bind fun item item' hi => ?_
  rw [pathHeader_eq hi]
  refine (Parallel.fit (.of_eq rfl)).bind_eq fun header => ?_
  refine (parallel_operations hdoc hself name hi Verb.all).bind fun methods methods' hm => ?_
  have ids : methods.map Method.id = methods'.map Method.id := by
    induction hm with
    | nil => rfl
    | cons first _ ih =>
      rw [List.map_cons, List.map_cons, ih, first.same]
      rfl
  rw [ids]
  exact (Parallel.notify (.entity _ (.path _))).bind fun _ _ _ => .pure ⟨rfl, hm⟩

theorem parallel_paths : Parallel (List.Forall₂ (Both Eq (List.Forall₂ Method.Kin)))
    (paths document self scope) (paths document' self' scope) := by
  have ps := hdoc.walk (k := "paths") (by decide)
  unfold paths
  dsimp only
  rw [ps.truthy_eq]
  refine .ite (fun _ => .pure .nil) fun _ => ?_
  generalize document.get "paths" = v at ps
  generalize document'.get "paths" = w at ps
  cases ps with
  | obj order length values literal =>
    refine .mapM ((Json.Kin.obj order length values literal).paired.imp fun p p' hp => ?_)
    rw [hp.1]
    exact parallel_path hdoc hself _ hp.2
  | _ => exact .malformed rfl rfl

end

theorem parallel_models : Parallel Eq models models := by
  have loop {ms ms' : List Model} (h : List.Forall₂ Model.Kin ms ms') : Parallel Eq
      (forIn ms PUnit.unit fun m _ => do
        notify (.entity [m.kind, .model] (.model m))
        return .yield PUnit.unit)
      (forIn ms' PUnit.unit fun m _ => do
        notify (.entity [m.kind, .model] (.model m))
        return .yield PUnit.unit) := by
    induction h with
    | nil => exact .pure rfl
    | @cons m m' ms ms' first _ ih =>
      rw [List.forIn_cons, List.forIn_cons]
      refine Parallel.bind_eq (.bind (.notify ?_) fun _ _ _ => .pure rfl) fun next => ?_
      · rw [first.kind]
        exact .entity _ (.model first)
      · cases next with
        | done _ => exact .pure rfl
        | yield _ => exact ih
  refine Parallel.registry.bind fun r r' hr => (loop ?_).bind fun _ _ _ => .pure rfl
  rw [Dict.values, Dict.values, List.forall₂_map_left_iff, List.forall₂_map_right_iff]
  exact hr.models.imp fun _ _ h => h.2

end Walk

/-- Documents that are the same but for the order of keys are walked side by side. -/
theorem parallel_walk (hdoc : Json.Kin walked document document') :
    Parallel (fun _ _ => True) (walk document) (walk document') := by
  have hself := parallel_resolveNode hdoc
  refine (Component.parallel_collect hdoc hself).bind fun _ _ _ => ?_
  refine (Walk.parallel_paths hdoc.loosen hself).bind fun _ _ _ => ?_
  exact Walk.parallel_models.bind fun _ _ _ => .pure trivial

end ApiGraph
