import ApiGraph.Proofs.Operations
import ApiGraph.Proofs.Payloads
import ApiGraph.Proofs.Resolve.Sparing
import Mathlib.Data.List.Forall2

/-! The responses and request bodies of an operation. There is one response for each status and media
type, and one without media type for a status without content; there is one request body for each
media type, and all of them carry the same. What each carries is told by the schema of its media
type: a handle has its name as the type, and all else has a primitive type or none. -/

namespace ApiGraph

open Resolving Registry

variable {document node schema : Json} {self : Resolver} {scope : Scope} {p q : Progress}
  {name : String} {r s : Registry} {o : Occasion}

namespace Payload

/-- Whether a schema in place is one of an array. -/
def isArray (schema : Json) : Bool :=
  schema.isObject && !schema.has "$ref" && (Schema.declaredType schema).1 = some "array"

/-- What a payload says of its schema: a payload that is registered has the name of its handle as its
type, one that is not has a primitive type or none, and an array is told from all else. -/
structure Fits (schema : Json) (payload : Payload) : Prop where
  handled : payload.ref.isSome = (registered? schema).isSome
  named : ∀ ref, payload.ref = some ref → payload.type = some ref.name
  simple : payload.ref = .none →
    (payload.type = .none ∧ schema.isNull = true) ∨ Schema.isPrimitiveType payload.type = true
  listed : payload.array = if isArray schema then some true else .none

/-- An array has no primitive type. -/
theorem isArray_of_isPrimitive (h : Schema.isPrimitive schema = true) : isArray schema = false := by
  simp only [Schema.isPrimitive, Bool.and_eq_true] at h
  rw [isArray, Bool.and_eq_false_iff]
  refine Or.inr (decide_eq_false fun array => ?_)
  rw [array] at h
  exact absurd h.2 (by decide)

theorem isPrimitiveType_of_isPrimitive (h : Schema.isPrimitive schema = true) :
    Schema.isPrimitiveType (Schema.declaredType schema).1 = true := by
  simp only [Schema.isPrimitive, Bool.and_eq_true] at h
  exact h.2

/-- What a schema is resolved into fits it. -/
theorem resolve_fits {payload : Payload} (h : Runs (resolve self scope name schema) p payload q) :
    payload.Fits schema := by
  have registers {v : Json} {scope : Scope} {array : Option Bool}
      (h : Runs (resolveRegistered self scope name v array) p payload q)
      (hv : registered? schema = some v)
      (listed : array = if isArray schema then some true else .none) : payload.Fits schema := by
    obtain ⟨_, _, found, _, -, -, rfl, -⟩ := resolveRegistered_runs h
    exact ⟨by simp [hv, ofRef], fun ref hr => by cases hr; rfl, (by rintro ⟨⟩), listed⟩
  have spares {payload : Payload} (bare : payload.ref = .none) (hv : registered? schema = Option.none)
      (simple : (payload.type = .none ∧ schema.isNull = true) ∨
        Schema.isPrimitiveType payload.type = true)
      (listed : payload.array = if isArray schema then some true else .none) : payload.Fits schema :=
    { handled := by rw [bare, hv]; rfl
      named ref hr := by rw [bare] at hr; cases hr
      simple _ := simple
      listed := listed }
  cases resolve_origin h with
  | missing null =>
    have single : isArray schema = false := by
      cases schema <;> first | rfl | cases null
    exact spares rfl (by simp [registered?, null]) (.inl ⟨rfl, null⟩) (by rw [single]; rfl)
  | simple primitive =>
    exact spares rfl (by simp [registered?, primitive])
      (.inr (isPrimitiveType_of_isPrimitive primitive)) (by rw [isArray_of_isPrimitive primitive]; rfl)
  | simples present composed array primitive =>
    exact spares rfl (by simp [registered?, present, composed, array, primitive])
      (.inr (isPrimitiveType_of_isPrimitive primitive)) (if_pos array).symm
  | items present composed array others run =>
    exact registers run (by simp [registered?, present, composed, array, others])
      (if_pos array).symm
  | whole present composed single run =>
    exact registers run (by simp [registered?, present, composed, single])
      (if_neg (Bool.eq_false_iff.1 single)).symm

theorem isArray_eq_of_alike {v w : Json} (h : Json.Alike v w) : isArray v = isArray w := by
  have types : (Schema.declaredType v).1 = some "array" ↔
      (Schema.declaredType w).1 = some "array" :=
    ⟨Schema.declaredType_of_alike h (by decide), Schema.declaredType_of_alike h.symm (by decide)⟩
  rw [isArray, isArray, h.isObject_eq, h.has_eq, decide_eq_decide.2 types]

/-- What fits a schema fits every schema that is the same up to the order of keys. -/
theorem Fits.of_alike {v w : Json} {payload : Payload} (h : payload.Fits v) (same : Json.Alike v w) :
    payload.Fits w := by
  have registered : (registered? w).isSome = (registered? v).isSome := by
    cases hv : registered? v with
    | some a =>
      obtain ⟨b, hw, -⟩ := registered?_of_alike same hv
      rw [hw]
      rfl
    | none =>
      cases hw : registered? w with
      | none => rfl
      | some b =>
        obtain ⟨a, ha, -⟩ := registered?_of_alike same.symm hw
        cases hv.symm.trans ha
  refine ⟨h.handled.trans registered.symm, h.named, fun unhandled => ?_, ?_⟩
  · rw [← same.isNull_eq]
    exact h.simple unhandled
  · rw [← isArray_eq_of_alike same]
    exact h.listed

end Payload

/-- What a response carries. -/
def Response.carries (r : Response) : Payload := ⟨r.type, r.payload, r.array⟩

/-- What a request body carries. -/
def RequestBody.carries (b : RequestBody) : Payload := ⟨b.type, b.payload, b.array⟩

/-- A response of a status for a media type. -/
structure Response.IsFor (status : String) (media : String × Json) (r : Response) : Prop where
  status : r.status = status
  mediaType : r.mediaType = some media.1
  fits : r.carries.Fits (media.2.get "schema")

/-- A response of a status without content. -/
structure Response.IsBare (status : String) (r : Response) : Prop where
  status : r.status = status
  mediaType : r.mediaType = none
  empty : r.carries = .none

/-- The responses of a status: one for each media type, in order, or a single one if there is none. -/
def Status.Expanded (a : Status) : Prop :=
  match contentOf a.node with
  | [] => ∃ r, a.responses = [r] ∧ r.IsBare a.entry.1
  | content => List.Forall₂ (Response.IsFor a.entry.1) content a.responses

/-- The media types of a request body carry the same, up to the order of keys. -/
def RequestBody.Uniform (content : List (String × Json)) : Prop :=
  ∀ a ∈ content, ∀ b ∈ content, Json.Alike (shapeOf a.2) (shapeOf b.2)

/-- The request bodies of a node: one for each media type, in order, all of which carry the same. -/
def RequestBody.Expanded (node : Json) (bodies : List RequestBody) : Prop :=
  Uniform (contentOf node) ∧ ∃ payload : Payload,
    List.Forall₂ (fun media (b : RequestBody) => b.mediaType = some media.1 ∧ b.carries = payload ∧
      payload.Fits (media.2.get "schema")) (contentOf node) bodies

namespace Response

variable {status : String} {headers : Dict String Ref} {content : List (String × Json)}
  {responses : List Response}

/-- Each media type gets a response that its schema fits. -/
theorem resolveMedia_expanded
    (h : Runs (resolveMedia self scope o status headers node content) p responses q) :
    List.Forall₂ (IsFor status) content responses ∧ ∀ r ∈ responses, r.headers = headers := by
  induction content generalizing p responses with
  | nil =>
    obtain ⟨rfl, -⟩ := runs_pure.1 h
    exact ⟨.nil, by simp⟩
  | cons media rest ih =>
    obtain ⟨-, payload, s, r, more, hp, hm, rfl, hstatus, hmedia, href, hheaders, htype, harray⟩ :=
      resolveMedia_runs h
    obtain ⟨expanded, same⟩ := ih hm
    have carried : r.carries = payload := by rw [carries, htype, href, harray]
    have first : IsFor status media r := ⟨hstatus, hmedia, carried ▸ Payload.resolve_fits hp⟩
    exact ⟨.cons first expanded, List.forall_mem_cons.2 ⟨hheaders, same⟩⟩

/-- The responses of a status are those of the node that it stands for, and have its headers, which
are resolved first. -/
theorem resolveStatus_expanded (h : Runs (resolveStatus document self scope o status node) p responses q) :
    ∃ v headers s, followChain document p.registry scope.location (document.size + 2) node = .ok v ∧
      Runs (Header.resolveAll document self scope (v.get "headers")) p headers s ∧
      (∀ r ∈ responses, r.headers = headers) ∧
      (q = s ∨ ∃ content, Runs (resolveMedia self scope o status headers v content) s responses q) ∧
      Status.Expanded ⟨(status, node), v, responses⟩ := by
  obtain ⟨v, headers, s, hv, hh, ⟨content, hc, full, hm⟩ |
    ⟨empty, rfl, r, rfl, hstatus, hmedia, href, hheaders, htype, harray⟩⟩ := resolveStatus_runs h
  · obtain ⟨expanded, same⟩ := resolveMedia_expanded hm
    refine ⟨v, headers, s, hv, hh, same, .inr ⟨content, hm⟩, ?_⟩
    have content_eq : contentOf v = content := by rw [contentOf, hc]
    unfold Status.Expanded
    dsimp only
    rw [content_eq]
    split
    · exact absurd rfl full
    · exact expanded
  · have bare : IsBare status r := ⟨hstatus, hmedia, by rw [carries, htype, href, harray]; rfl⟩
    refine ⟨v, headers, _, hv, hh, by simpa using hheaders, .inl rfl, ?_⟩
    unfold Status.Expanded
    dsimp only
    rw [contentOf_of_not_truthy empty]
    exact ⟨r, rfl, bare⟩

end Response

namespace RequestBody

variable {content : List (String × Json)} {bodies : List RequestBody}

/-- There is at most one content exactly if all media types carry the same. -/
theorem distinctShapes_le_one_iff : distinctShapes content ≤ 1 ↔ Uniform content := by
  unfold distinctShapes Uniform
  constructor
  · intro few a ha b hb
    refine Json.canonical_eq_iff.1 (eq_of_eraseDups_length few ?_ ?_)
    · exact List.mem_map_of_mem (f := fun media : String × Json => (shapeOf media.2).canonical) ha
    · exact List.mem_map_of_mem (f := fun media : String × Json => (shapeOf media.2).canonical) hb
  · intro same
    cases content with
    | nil => simp
    | cons first rest =>
      have all : ∀ text ∈ (rest.map fun media => (shapeOf media.2).canonical),
          text = (shapeOf first.2).canonical := by
        intro text ht
        obtain ⟨media, hm, rfl⟩ := List.mem_map.1 ht
        exact Json.canonical_eq_iff.2 (same media (List.mem_cons_of_mem _ hm) first List.mem_cons_self)
      have dropped : (rest.map fun media => (shapeOf media.2).canonical).filter
          (fun text => !text == (shapeOf first.2).canonical) = [] := by
        rw [List.filter_eq_nil_iff]
        intro text ht
        simp [all text ht]
      rw [List.map_cons, List.eraseDups_cons, dropped]
      simp

/-- Request bodies that share a payload all carry it. -/
theorem resolveMedia_shared {payload : Payload}
    (fits : ∀ media ∈ content, payload.Fits (shapeOf media.2))
    (h : Runs (resolveMedia self scope o node (some payload) content) p bodies q) :
    List.Forall₂ (fun media (b : RequestBody) => b.mediaType = some media.1 ∧ b.carries = payload ∧
      payload.Fits (media.2.get "schema")) content bodies := by
  induction content generalizing p bodies with
  | nil =>
    obtain ⟨rfl, -⟩ := runs_pure.1 h
    exact .nil
  | cons media rest ih =>
    obtain ⟨here, others⟩ := List.forall_mem_cons.1 fits
    obtain ⟨object, _, s, body, more, ⟨known, -⟩ | ⟨absent, -⟩, hm, rfl, hmedia, href, htype, harray⟩ :=
      resolveMedia_runs h
    · cases known
      rw [shapeOf, if_pos object] at here
      exact .cons ⟨hmedia, by rw [carries, htype, href, harray], here⟩ (ih others hm)
    · cases absent

/-- What the first media type carries is what all of them carry. -/
theorem resolveMedia_expanded (uniform : Uniform content)
    (h : Runs (resolveMedia self scope o node none content) p bodies q) :
    ∃ payload : Payload, List.Forall₂ (fun media (b : RequestBody) => b.mediaType = some media.1 ∧
      b.carries = payload ∧ payload.Fits (media.2.get "schema")) content bodies := by
  cases content with
  | nil =>
    obtain ⟨rfl, -⟩ := runs_pure.1 h
    exact ⟨.none, .nil⟩
  | cons media rest =>
    obtain ⟨object, payload, s, body, more, ⟨known, -⟩ | ⟨-, hp⟩, hm, rfl, hmedia, href, htype,
      harray⟩ := resolveMedia_runs h
    · cases known
    have shape : shapeOf media.2 = media.2.get "schema" := if_pos object
    have carried : body.carries = payload := by rw [carries, htype, href, harray]
    have fits : payload.Fits (media.2.get "schema") := Payload.resolve_fits hp
    refine ⟨payload, .cons ⟨hmedia, carried, fits⟩ (resolveMedia_shared (fun other ho => ?_) hm)⟩
    have same := uniform media List.mem_cons_self other (List.mem_cons_of_mem _ ho)
    rw [shape] at same
    exact fits.of_alike same

/-- The request bodies of an operation are those of the node that its request body stands for. -/
theorem resolveAll_expanded (h : Runs (resolveAll document self scope o node) p bodies q) :
    ∃ v, Stands document p.registry node v ∧ Expanded v bodies := by
  obtain ⟨v, hv, ⟨empty, -, rfl⟩ | ⟨content, hc, few, hm⟩⟩ := resolveAll_runs h
  · refine ⟨v, ⟨_, hv⟩, ?_⟩
    unfold Expanded Uniform
    rw [contentOf_of_not_truthy empty]
    exact ⟨by simp, .none, .nil⟩
  · have content_eq : contentOf v = content := by rw [contentOf, hc]
    have uniform := distinctShapes_le_one_iff.1 few
    refine ⟨v, ⟨_, hv⟩, ?_⟩
    unfold Expanded
    rw [content_eq]
    exact ⟨uniform, resolveMedia_expanded uniform hm⟩

end RequestBody

/-- A request body whose media types do not carry the same is refused, with all that is registered
left as it is. -/
theorem RequestBody.refused {v body : Json} {content : List (String × Json)}
    (stands : Stands document p.registry body v) (hc : v.get "content" = .obj content)
    (differ : ¬ Uniform content) :
    ∃ count, 2 ≤ count ∧ (resolveAll document self scope o body).run.run p =
      (.error (.malformed (.distinctShapes count) (scope.down ["requestBody"]).location), p) := by
  have many : 1 < distinctShapes content := by
    by_contra few
    exact differ (distinctShapes_le_one_iff.1 (Nat.not_lt.1 few))
  refine ⟨distinctShapes content, many, ?_⟩
  have full : (Json.obj content).truthy = true := by
    cases content with
    | nil => exact absurd many (by decide)
    | cons _ _ => rfl
  unfold resolveAll
  rw [run_bind, dereference_run, followChain_of_stands stands]
  simp only [hc, full, if_pos many]
  rfl

/-- A request body whose media types carry the same is not refused for having several. -/
theorem RequestBody.spared (hself : self.Spares) {v body : Json} {content : List (String × Json)}
    (stands : Stands document p.registry body v) (hc : v.get "content" = .obj content)
    (uniform : Uniform content) :
    ∀ f, ((resolveAll document self scope o body).run.run p).1 = .error f →
      f.isOfShapes = false := by
  have few : ¬ 1 < distinctShapes content := Nat.not_lt.2 (distinctShapes_le_one_iff.2 uniform)
  unfold resolveAll
  rw [run_bind, dereference_run, followChain_of_stands stands]
  simp only [hc, if_neg few]
  exact Spares.ite (.pure _) (spares_resolveMedia hself) p

/-- A status was resolved: into the responses of the node that it stands for, which have the headers of
that node. -/
structure Status.Resolved (document : Json) (a : Status) (p q : Progress) : Prop where
  leads : p.Leads document q
  stands : Stands document p.registry a.entry.2 a.node
  expanded : a.Expanded
  headers : ∃ scope headers s, Runs (Header.resolveAll document (resolveNode document) scope
    (a.node.get "headers")) p headers s ∧ s.Leads document q ∧ ∀ r ∈ a.responses, r.headers = headers

theorem Response.resolveEach_chain {verb : Verb} (hv : o.verb = verb.word)
    {entries : List (String × Json)} {responses : List Response}
    (h : Runs (resolveEach document (resolveNode document) scope o entries) p responses q) :
    ∃ statuses, Chain (Status.Resolved document) statuses p q ∧ statuses.map Status.entry = entries ∧
      responses = statuses.flatMap Status.responses := by
  refine chain_of_each (fun {entry here p s} hh => ?_) h
  obtain ⟨v, headers, t, hs, hd, same, media, expanded⟩ := resolveStatus_expanded hh
  have leads : p.Leads document s := by
    intro T
    have left : T.Leaves p.registry (here.flatMap Response.refs) s.registry :=
      Traversal.resolveResponse (Traversal.sound_resolveNode T) hv hh
    exact ⟨_, left⟩
  have later : t.Leads document s := by
    obtain rfl | ⟨content, hm⟩ := media
    · exact .refl _
    · intro T
      obtain ⟨refs, left, -⟩ :=
        Traversal.resolveResponseMedia (Traversal.sound_resolveNode T) hv hm
      exact ⟨refs, left⟩
  exact ⟨v, leads, ⟨_, hs⟩, expanded, _, headers, t, hd, later, same⟩

/-- The responses and request bodies of an operation are those of its statuses and of the node that
its request body stands for. -/
structure Method.Expanded (operation : Json) (m : Method) (statuses : List Status) (body : Json) :
    Prop where
  entries : orElse (operation.get "responses") (.obj []) = .obj (statuses.map Status.entry)
  responses : m.responses = statuses.flatMap Status.responses
  statuses : ∀ a ∈ statuses, a.Expanded
  bodies : RequestBody.Expanded body m.requestBodies

/-- An operation has its statuses resolved one after the other, and its request body next. -/
theorem Method.resolve_expanded {verb : Verb} {path : String} {item operation : Json} {m : Method}
    (h : Runs (resolve document (resolveNode document) scope verb path item operation) p m q) :
    ∃ statuses body s t, m.Expanded operation statuses body ∧ p.Leads document s ∧
      Chain (Status.Resolved document) statuses s t ∧ t.Leads document q ∧
      ((operation.get "requestBody").isNull = true ∧ body = .null ∨
        Stands document t.registry (operation.get "requestBody") body) := by
  obtain ⟨wanted, params, o, p₁, p₂, p₃, p₄, p₅, p₆, ⟨given, rfl⟩, -, hv, hn, hr, -, -, -, hg, h₁, h₂, h₃,
    h₄, h₅, -, -⟩ := resolve_runs h
  obtain ⟨entries, he, h₄⟩ := Response.resolveAll_runs h₄
  obtain ⟨statuses, chain, rfl, responses⟩ := Response.resolveEach_chain hv h₄
  have opened : p.Leads document p₅ := by
    intro T
    have params := Traversal.resolveParameters (T := T) hg
    rw [hr] at params
    exact ⟨_, params.append (Traversal.gatherGroups hn h₁ h₂ h₃)⟩
  have each : ∀ a ∈ statuses, a.Expanded := by
    intro a ha
    obtain ⟨_, _, resolved⟩ := chain.mem ha
    exact resolved.expanded
  obtain ⟨null, rfl, none⟩ | ⟨-, hb⟩ := h₅
  · refine ⟨statuses, .null, p₅, q, ⟨he, responses, each, ?_⟩, opened, chain, .refl _, .inl ⟨null, rfl⟩⟩
    rw [none]
    exact ⟨nofun, .none, .nil⟩
  · obtain ⟨v, stands, expanded⟩ := RequestBody.resolveAll_expanded hb
    have rest : p₆.Leads document q := by
      intro T
      have left : T.Leaves p₆.registry _ q.registry :=
        Traversal.resolveBodies (Traversal.sound_resolveNode T) hv hb
      exact ⟨_, left⟩
    exact ⟨statuses, v, p₅, p₆, ⟨he, responses, each, expanded⟩, opened, chain, rest, .inr stands⟩

variable {τ : Type} {g g' : Graph τ}

/-- The responses of every operation of an accepted document are those of its statuses in order, one
for each media type in order or a single one that carries nothing, and its request bodies are one for
each media type, all of which carry the same; what each carries is told by its schema. A request body
whose media types do not carry the same is refused before anything of it is registered, and one
whose media types do is never refused for having several. -/
theorem operations_expanded (h : Graph.Accepts g document g') :
    (∃ visits, Graph.Account document g' visits ∧ ∀ v ∈ visits,
      Answered document g'.registry v.entry.2 v.item ∧ ∀ stop ∈ v.stops, ∃ statuses body,
        stop.method.Expanded (v.item.get stop.method.verb.word) statuses body ∧
        (∀ a ∈ statuses, Answered document g'.registry a.entry.2 a.node) ∧
        (((v.item.get stop.method.verb.word).get "requestBody").isNull = true ∧ body = .null ∨
          Answered document g'.registry ((v.item.get stop.method.verb.word).get "requestBody")
            body)) ∧
    ∀ scope o p node v content, Stands document p.registry node v →
      v.get "content" = .obj content →
      (¬ RequestBody.Uniform content → ∃ count, 2 ≤ count ∧
        (RequestBody.resolveAll document (resolveNode document) scope o node).run.run p =
          (.error (.malformed (.distinctShapes count) (scope.down ["requestBody"]).location), p)) ∧
      (RequestBody.Uniform content → ∀ f,
        ((RequestBody.resolveAll document (resolveNode document) scope o node).run.run p).1 =
          .error f → f.isOfShapes = false) := by
  obtain ⟨visits, account⟩ := h.account
  refine ⟨⟨visits, account, fun v hv => ⟨account.item hv, fun stop hs => ?_⟩⟩,
    fun scope o p node v content stands hc => ⟨RequestBody.refused stands hc,
      RequestBody.spared (spares_resolveNode document) stands hc⟩⟩
  obtain ⟨scope, p, q, mid, run, after⟩ := account.operation hv hs
  obtain ⟨statuses, body, s, t, expanded, first, chain, rest, hbody⟩ := Method.resolve_expanded run
  have steps : ∀ a p q, Status.Resolved document a p q → p.Leads document q :=
    fun _ _ _ resolved => resolved.leads
  have answered : s.Leads document t := chain.leads steps
  have ending : ∀ R : String → Prop, t.registry.Extends R g'.registry :=
    fun R => (rest.grown R).trans (after R)
  refine ⟨statuses, body, expanded, fun a ha => ?_, hbody.imp_right fun stands => ?_⟩
  · obtain ⟨u, w, before, resolved, later⟩ := chain.between steps ha
    exact resolved.stands.answered (mid.leads (first.trans before) fun R =>
      ((resolved.leads.trans later).grown R).trans (ending R))
  · exact stands.answered (mid.leads (first.trans answered) ending)

/-- A response with a text. -/
def ordering.gone : Json :=
  .obj [("content", .obj [("text/plain", .obj [("schema", .obj [("type", .str "string")])])])]

/-- The reference to a declared response. -/
def ordering.link : String := Pointer.component "responses" "Gone"

/-- A document with an operation that answers with lists of orders, without content, and with a
response that is declared under the components next to a schema of some name; its request body has
two media types. -/
def ordering (schema : String) : Json :=
  let media (schema : Json) : Json := .obj [("schema", schema)]
  let order : Json := .obj [("properties", .obj [("id", .obj [])])]
  .obj [("openapi", .str "3.0.0"),
    ("components", .obj [("schemas", .obj [(schema, .obj [])]), ("responses", .obj [
      ("Gone", ordering.gone)])]),
    ("paths", .obj [("/orders", .obj [("post", .obj [
      ("requestBody", .obj [("content", .obj [("application/json", media order),
        ("application/xml", media order)])]),
      ("responses", .obj [
        ("200", .obj [("content", .obj [("application/json",
          media (.obj [("type", .str "array"), ("items", order)]))])]),
        ("204", .obj []),
        ("404", .link ordering.link)])])])])]

/-- The status, media type, type and array of each response of the operations of a graph. -/
def Graph.responded (g : Graph Unit) :
    List (String × Option String × Option String × Option Bool) :=
  g.methods.flatMap fun m => m.2.responses.map fun r => (r.status, r.mediaType, r.type, r.array)

/-- The media type, type and array of each request body of the operations of a graph. -/
def Graph.requested (g : Graph Unit) : List (Option String × Option String × Option Bool) :=
  g.methods.flatMap fun m => m.2.requestBodies.map fun b => (b.mediaType, b.type, b.array)

/-- Each status and media type has its response, and each media type of the body its request body. -/
theorem operations_expanded_orders :
    let g' : Graph Unit := (Graph.empty.parse (ordering "Order") none).graph
    Graph.Accepts Graph.empty (ordering "Order") g' ∧
      g'.responded = [("200", some "application/json", some "OrdersPostApplicationJson200", some true),
        ("204", none, none, none), ("404", some "text/plain", some "string", none)] ∧
      g'.requested = [(some "application/json", some "OrdersPostApplicationJson200", none),
        (some "application/xml", some "OrdersPostApplicationJson200", none)] ∧
      ∃ visits, Graph.Account (ordering "Order") g' visits ∧ ∀ v ∈ visits, ∀ stop ∈ v.stops,
        ∃ statuses body, stop.method.Expanded (v.item.get stop.method.verb.word) statuses body := by
  intro g'
  have accepted : Graph.Accepts Graph.empty (ordering "Order") g' := .of_isOk (by decide +kernel)
  obtain ⟨⟨visits, account, each⟩, -⟩ := operations_expanded accepted
  refine ⟨accepted, by decide +kernel, by decide +kernel, visits, account, fun v hv stop hs => ?_⟩
  obtain ⟨statuses, body, expanded, -⟩ := (each v hv).2 stop hs
  exact ⟨statuses, body, expanded⟩

/-- A schema whose name is the reference to a response answers in its place, so that the status has no
content although the response has. -/
theorem response_hidden_by_schema :
    let g' : Graph Unit := (Graph.empty.parse (ordering ordering.link) none).graph
    Graph.Accepts Graph.empty (ordering ordering.link) g' ∧
      Chase (ordering ordering.link) (.link ordering.link) [ordering.link] (.found ordering.gone) ∧
      g'.responded.filter (·.1 = "404") = [("404", none, none, none)] := by
  intro g'
  exact ⟨.of_isOk (by decide +kernel), .next (Json.get?_link _) rfl (.found rfl rfl),
    by decide +kernel⟩

end ApiGraph
