import ApiGraph.Proofs.Graph
import ApiGraph.Proofs.Resolve.Collection
import ApiGraph.Proofs.Resolve.Inline

/-! Payloads with a schema in place. Each gets the name of its content, so that two of them share a
handle exactly if their schemas are the same up to the order of keys. -/

namespace ApiGraph

open Resolving Registry

/-- A schema that a media type of an operation carries, with the handle of its payload. -/
structure Carried where
  schema : Json
  ref : Option Ref

/-- The content that the payload stands for, if it is a schema in place: the schema itself, or its
items if it is an array. -/
def Carried.inline? (c : Carried) : Option Json :=
  (Payload.registered? c.schema).filter Payload.isInline

/-- The schemas of some media types with the handles that they got. -/
def carriedBy (content : List (String × Json)) (refs : List (Option Ref)) : List Carried :=
  List.zipWith (fun media ref => ⟨media.2.get "schema", ref⟩) content refs

/-- What the media types of a status carry. -/
def Status.carried (a : Status) : List Carried :=
  carriedBy (contentOf a.node) (a.responses.map Response.payload)

/-- What the media types of a request body carry. -/
def Stop.offered (stop : Stop) : List Carried :=
  carriedBy (stop.body.elim [] contentOf) (stop.method.requestBodies.map RequestBody.payload)

/-- What an operation carries. -/
def Stop.carried (stop : Stop) : List Carried :=
  stop.statuses.flatMap Status.carried ++ stop.offered

/-- What the operations of a path carry. -/
def Visit.carried (v : Visit) : List Carried := v.stops.flatMap Stop.carried

/-- The handles of the payloads of an operation. -/
def Method.payloads (m : Method) : List Ref :=
  m.responses.filterMap Response.payload ++ m.requestBodies.filterMap RequestBody.payload

/-- The handle of an inline schema has the name of its content. -/
def Carried.Settled (r : Registry) (c : Carried) : Prop :=
  ∀ a, c.inline? = some a →
    ∃ name, c.ref = some (.named name) ∧ r.structural.lookup a.canonical = some name

variable {document node : Json} {scope : Scope} {site : Site} {p q : Progress} {name : String}
  {r s : Registry} {c d : Carried} {R P : String → Prop} {out : Outcome}

theorem Carried.inline?_eq_some {a : Json} (h : c.inline? = some a) :
    Payload.registered? c.schema = some a ∧ Payload.isInline a = true := by
  simpa [inline?, Option.filter_eq_some_iff] using h

theorem Carried.Settled.grows (h : c.Settled r) (g : Grows P r s) : c.Settled s := by
  intro a ha
  obtain ⟨name, hr, hl⟩ := h a ha
  exact ⟨name, hr, g.content hl⟩

/-- Schemas that are alike get the same handle when one of them gives it to the other. -/
theorem Carried.Settled.alike (h : c.Settled r) (hs : Json.Alike c.schema d.schema)
    (hr : d.ref = c.ref) : d.Settled r := by
  intro b hb
  obtain ⟨hb, hi⟩ := inline?_eq_some hb
  obtain ⟨a, ha, hab⟩ := Payload.registered?_of_alike hs.symm hb
  have hc : c.inline? = some a := by
    rw [inline?, ha, Option.filter_some, if_pos]
    rw [← Payload.isInline_eq_of_alike hab]
    exact hi
  obtain ⟨name, hn, hl⟩ := h a hc
  exact ⟨name, hr.trans hn, by rw [Json.canonical_eq_iff.2 hab]; exact hl⟩

/-- An inline schema is resolved into a handle only if its content has a name already. -/
theorem resolveNode_inline {ref : Ref} (hi : Payload.isInline node = true)
    (h : Runs (resolveNode document site node) p out q) (hr : out.result = .ref ref) :
    ∃ name, ref = .named name ∧ q.registry.structural.lookup node.canonical = some name ∧
      q.registry.contains name = true := by
  simp only [Payload.isInline, Bool.and_eq_true, Bool.not_eq_true'] at hi
  obtain ⟨depth, h⟩ := resolveNode_runs h
  obtain ⟨-, ⟨hf, -⟩ | ⟨-, m, -, rfl⟩ | ⟨-, m, -, rfl⟩ | ⟨-, kind, m, -, -, rfl⟩ | ⟨-, h⟩⟩ :=
    resolveForm_runs h
  · rw [Schema.isRef_of_formOf hf] at hi
    exact absurd hi.1.2 (by decide)
  · cases hr
  · cases hr
  · cases hr
  · obtain ⟨known, -, hf, rfl, rfl⟩ | ⟨start, m, needs, -, -, rfl⟩ := Schema.resolve_runs h
    · obtain rfl := Link.ref.inj hr
      exact findStructural_eq_some hf
    · split at hr <;> cases hr

/-- What is registered for an inline schema has the name of its content. -/
theorem Payload.resolveRegistered_content {v : Json} {array : Option Bool} {payload : Payload}
    (hi : isInline v = true)
    (h : Runs (resolveRegistered (resolveNode document) scope name v array) p payload q) :
    ∃ known, payload.ref = some (.named known) ∧
      q.registry.structural.lookup v.canonical = some known := by
  obtain ⟨out, s, found, t, hs, ha, rfl, rfl⟩ := resolveRegistered_runs h
  obtain ⟨link, needs⟩ := out
  cases link with
  | model m =>
    have plain : v.has "$ref" = false := by
      simp only [isInline, Bool.and_eq_true, Bool.not_eq_true'] at hi
      exact hi.1.2
    obtain ⟨known, hf, hl⟩ := register_indexed (assert_model plain ha)
    exact ⟨known, congrArg some hf, hl⟩
  | ref ref =>
    obtain ⟨known, rfl, hl, hc⟩ := resolveNode_inline hi hs rfl
    obtain ⟨m, hm⟩ := contains_iff.1 hc
    have hf : s.registry.requireRef (.named known) scope.location =
        .ok ⟨.named known, some m⟩ := by
      simp [requireRef, resolveRef, Ref.isRemote, Ref.named, Registry.resolve, hc, hm]
    simp only [Registry.assert, hf, Except.map, Except.ok.injEq, Prod.mk.injEq] at ha
    obtain ⟨rfl, rfl⟩ := ha
    exact ⟨known, rfl, hl⟩

theorem Payload.resolve_settled {schema : Json} {payload : Payload}
    (h : Runs (resolve (resolveNode document) scope name schema) p payload q) :
    Carried.Settled q.registry ⟨schema, payload.ref⟩ := by
  intro a ha
  obtain ⟨ha, hi⟩ := Carried.inline?_eq_some ha
  obtain ⟨-, hn, -⟩ | ⟨v, scope', array, hv, hr⟩ := resolve_runs h
  · rw [hn] at ha
    cases ha
  · obtain rfl : v = a := Option.some.inj (hv.symm.trans ha)
    exact resolveRegistered_content hi hr

/-- What a run over several parts does to the registry, and that the parts are settled in the end. -/
structure Settling (document : Json) (p q : Progress) (carried : List Carried) : Prop where
  sound : q.registry.Sound (Component.Undeclared document)
  grows : Grows (fun _ => False) p.registry q.registry
  settled : ∀ c ∈ carried, c.Settled q.registry

namespace Settling

variable {t : Progress} {cs ds : List Carried}

theorem of_extends (h : p.registry.Extends (Component.Undeclared document) q.registry)
    (hp : p.registry.Sound (Component.Undeclared document)) : Settling document p q [] :=
  ⟨(h hp).1, (h hp).2.of_new, by simp⟩

theorem append (h₁ : Settling document p q cs) (h₂ : Settling document q t ds) :
    Settling document p t (cs ++ ds) := by
  refine ⟨h₂.sound, h₁.grows.trans h₂.grows, fun c hc => ?_⟩
  rcases List.mem_append.1 hc with hc | hc
  · exact (h₁.settled c hc).grows h₂.grows
  · exact h₂.settled c hc

theorem cons (h₁ : Settling document p q []) (hc : c.Settled q.registry)
    (h₂ : Settling document q t ds) : Settling document p t (c :: ds) := by
  have first : Settling document p q [c] := ⟨h₁.sound, h₁.grows, by simpa using hc⟩
  exact first.append h₂

/-- Parts that are settled one by one are settled together. -/
theorem chain {α : Type} {step : α → Progress → Progress → Prop} {f : α → List Carried}
    {as : List α}
    (one : ∀ a p q, p.registry.Sound (Component.Undeclared document) → step a p q →
      Settling document p q (f a))
    (h : Chain step as p q) (hp : p.registry.Sound (Component.Undeclared document)) :
    Settling document p q (as.flatMap f) := by
  induction h with
  | nil => exact of_extends (.refl _) hp
  | cons first _ ih =>
    have here := one _ _ _ hp first
    exact here.append (ih here.sound)

end Settling

theorem settling_payload {schema : Json} {payload : Payload} (identifier : IsIdentifier name)
    (hp : p.registry.Sound (Component.Undeclared document))
    (h : Runs (Payload.resolve (resolveNode document) scope name schema) p payload q) :
    Settling document p q [⟨schema, payload.ref⟩] := by
  have leaves := Traversal.resolvePayload (Traversal.sound_resolveNode
    (extension document (Component.Undeclared document))) identifier h
  have grown : Settling document p q [] := .of_extends leaves hp
  exact ⟨grown.sound, grown.grows, by simpa using Payload.resolve_settled h⟩

theorem settling_media {o : Occasion} {verb : Verb} {status : String} {headers : Dict String Ref}
    {content : List (String × Json)} {responses : List Response} (hv : o.verb = verb.word)
    (hp : p.registry.Sound (Component.Undeclared document))
    (h : Runs (Response.resolveMedia (resolveNode document) scope o status headers node content) p
      responses q) :
    Settling document p q (carriedBy content (responses.map Response.payload)) := by
  induction content generalizing p responses with
  | nil =>
    obtain ⟨rfl, rfl⟩ := runs_pure.1 h
    exact .of_extends (.refl _) hp
  | cons media rest ih =>
    obtain ⟨-, payload, s, response, more, hpay, hm, rfl, -, -, hr, -⟩ := Response.resolveMedia_runs h
    have first := settling_payload (Occasion.isIdentifier_payloadName hv _ _) hp hpay
    have both := first.append (ih first.sound hm)
    rwa [← hr] at both

theorem settling_status {a : Status} (hp : p.registry.Sound (Component.Undeclared document))
    (h : a.Made document p q) : Settling document p q a.carried := by
  obtain ⟨-, scope, o, verb, hv, headers, s, hh, hc⟩ := h
  have leaves := Traversal.resolveHeaders (Traversal.sound_resolveNode
    (extension document (Component.Undeclared document))) hh
  have grown : Settling document p s [] := .of_extends leaves hp
  obtain ⟨-, hm⟩ | ⟨hn, rfl, -⟩ := hc
  · exact grown.append (settling_media hv grown.sound hm)
  · rw [Status.carried, hn]
    exact grown

/-- Among contents of which there is at most one any two are equal. -/
theorem eq_of_eraseDups_length {α : Type} [BEq α] [LawfulBEq α] {l : List α} {a b : α}
    (h : l.eraseDups.length ≤ 1) (ha : a ∈ l) (hb : b ∈ l) : a = b := by
  rw [← List.mem_eraseDups] at ha hb
  match hl : l.eraseDups with
  | [] => simp [hl] at ha
  | [x] =>
    rw [hl, List.mem_singleton] at ha hb
    rw [ha, hb]
  | x :: y :: rest => simp [hl] at h

/-- Request bodies that share a payload are settled if the payload is, for each of them. -/
theorem settling_shared {o : Occasion} {content : List (String × Json)} {payload : Payload}
    {bodies : List RequestBody} (hp : p.registry.Sound (Component.Undeclared document))
    (shared : ∀ media ∈ content,
      Carried.Settled p.registry ⟨RequestBody.shapeOf media.2, payload.ref⟩)
    (h : Runs (RequestBody.resolveMedia (resolveNode document) scope o node (some payload) content)
      p bodies q) :
    Settling document p q (carriedBy content (bodies.map RequestBody.payload)) := by
  induction content generalizing p bodies with
  | nil =>
    obtain ⟨rfl, rfl⟩ := runs_pure.1 h
    exact .of_extends (.refl _) hp
  | cons media rest ih =>
    obtain ⟨ho, known, s, body, more, ⟨he, rfl⟩ | ⟨hn, -⟩, hm, rfl, -, hr, -⟩ :=
      RequestBody.resolveMedia_runs h
    · obtain rfl := Option.some.inj he
      have first := shared media (by simp)
      rw [RequestBody.shapeOf, if_pos ho, ← hr] at first
      exact .cons (.of_extends (.refl _) hp) first
        (ih hp (fun media hm => shared media (List.mem_cons_of_mem _ hm)) hm)
    · cases hn

theorem settling_bodies {o : Occasion} {verb : Verb} {content : List (String × Json)}
    {bodies : List RequestBody} (hv : o.verb = verb.word)
    (alike : RequestBody.distinctShapes content ≤ 1)
    (hp : p.registry.Sound (Component.Undeclared document))
    (h : Runs (RequestBody.resolveMedia (resolveNode document) scope o node none content) p bodies
      q) : Settling document p q (carriedBy content (bodies.map RequestBody.payload)) := by
  cases content with
  | nil =>
    obtain ⟨rfl, rfl⟩ := runs_pure.1 h
    exact .of_extends (.refl _) hp
  | cons media rest =>
    obtain ⟨ho, payload, s, body, more, ⟨he, -⟩ | ⟨-, hpay⟩, hm, rfl, -, hr, -⟩ :=
      RequestBody.resolveMedia_runs h
    · cases he
    have first := settling_payload (Occasion.isIdentifier_payloadName hv _ _) hp hpay
    have lead : Carried.Settled s.registry ⟨RequestBody.shapeOf media.2, payload.ref⟩ := by
      rw [RequestBody.shapeOf, if_pos ho]
      exact first.settled _ (by simp)
    -- the other media types carry what the first one does
    have shared : ∀ other ∈ rest,
        Carried.Settled s.registry ⟨RequestBody.shapeOf other.2, payload.ref⟩ := by
      intro other hother
      refine lead.alike (Json.canonical_eq_iff.1 ?_) rfl
      exact eq_of_eraseDups_length alike (List.mem_map_of_mem (f := fun media : String × Json =>
        (RequestBody.shapeOf media.2).canonical) List.mem_cons_self)
        (List.mem_map_of_mem (f := fun media : String × Json =>
          (RequestBody.shapeOf media.2).canonical) (List.mem_cons_of_mem _ hother))
    have both := first.append (settling_shared first.sound shared hm)
    rwa [← hr] at both

theorem Method.Prepared.extends {m : Method} (h : m.Prepared document p q) :
    p.registry.Extends R q.registry := by
  obtain ⟨scope, params, p₁, p₂, p₃, p₄, hr, hg, h₁, h₂, h₃⟩ := h
  have gathered {refs : List Ref} {name : String} {ref? : Option Ref} {p q : Progress}
      (h : Runs (Parameter.gather scope refs name) p ref? q) : p.registry.Extends R q.registry := by
    obtain ⟨rfl, -⟩ | ⟨_, _, _, _, -, -, -, -, -, -, ha, -, rfl⟩ := Parameter.gather_runs h
    · exact .refl _
    · exact extends_assert ha
  have params : (extension document R).Leaves p₁.registry _ p₂.registry :=
    Traversal.resolveParameters hg
  rw [hr] at params
  exact ((params.trans (gathered h₁)).trans (gathered h₂)).trans (gathered h₃)

theorem settling_stop {item : Json} {stop : Stop}
    (hp : p.registry.Sound (Component.Undeclared document))
    (h : stop.Made document name item p q) : Settling document p q stop.carried := by
  obtain ⟨-, -, -, p₁, p₂, p₃, hprep, chain, hoff, hq⟩ := h
  have prepared : Settling document p p₁ [] := .of_extends hprep.extends hp
  have answered : Settling document p₁ p₂ (stop.statuses.flatMap Status.carried) :=
    .chain (fun _ _ _ => settling_status) chain prepared.sound
  have offered : Settling document p₂ p₃ stop.offered := by
    have hs := answered.sound
    unfold Stop.Offered at hoff
    unfold Stop.offered
    split at hoff
    · next hb =>
      obtain ⟨-, rfl, hn⟩ := hoff
      rw [hb, hn]
      exact .of_extends (.refl _) hs
    · next v hb =>
      obtain ⟨-, -, alike, scope, o, verb, hv, hm⟩ := hoff
      rw [hb]
      exact settling_bodies hv alike hs hm
  have all := (prepared.append answered).append offered
  exact ⟨hq ▸ all.sound, hq ▸ all.grows, hq ▸ all.settled⟩

theorem settling_visit {v : Visit} (hp : p.registry.Sound (Component.Undeclared document))
    (h : v.Made document p q) : Settling document p q v.carried := by
  obtain ⟨-, -, -, -, -, -, s, chain, rfl⟩ := h
  have all : Settling document p s v.carried := .chain (fun _ _ _ => settling_stop) chain hp
  exact ⟨all.sound, all.grows, all.settled⟩

theorem length_media {o : Occasion} {status : String} {headers : Dict String Ref}
    {content : List (String × Json)} {responses : List Response}
    (h : Runs (Response.resolveMedia (resolveNode document) scope o status headers node content) p
      responses q) : responses.length = content.length := by
  induction content generalizing p responses with
  | nil => rw [(runs_pure.1 h).1, List.length_nil, List.length_nil]
  | cons media rest ih =>
    obtain ⟨-, payload, s, response, more, -, hm, rfl, -⟩ := Response.resolveMedia_runs h
    rw [List.length_cons, List.length_cons, ih hm]

theorem length_bodies {o : Occasion} {shared : Option Payload} {content : List (String × Json)}
    {bodies : List RequestBody}
    (h : Runs (RequestBody.resolveMedia (resolveNode document) scope o node shared content) p bodies
      q) : bodies.length = content.length := by
  induction content generalizing p shared bodies with
  | nil => rw [(runs_pure.1 h).1, List.length_nil, List.length_nil]
  | cons media rest ih =>
    obtain ⟨-, payload, s, body, more, -, hm, rfl, -⟩ := RequestBody.resolveMedia_runs h
    rw [List.length_cons, List.length_cons, ih hm]

theorem carriedBy_refs {α : Type} {f : α → Option Ref} {content : List (String × Json)}
    {as : List α} (h : as.length = content.length) :
    (carriedBy content (as.map f)).filterMap Carried.ref = as.filterMap f := by
  induction as generalizing content with
  | nil => rw [List.map_nil, carriedBy, List.zipWith_nil_right, List.filterMap_nil, List.filterMap_nil]
  | cons a as ih =>
    cases content with
    | nil => cases h
    | cons media rest =>
      have rest := ih (Nat.succ.inj h)
      rw [carriedBy] at rest ⊢
      rw [List.map_cons, List.zipWith_cons_cons, List.filterMap_cons, List.filterMap_cons, rest]

/-- The handles that an operation carries are those of its responses and request bodies. -/
theorem Stop.Made.refs {item : Json} {stop : Stop} (h : stop.Made document name item p q) :
    stop.carried.filterMap Carried.ref = stop.method.payloads := by
  obtain ⟨-, -, hresponses, p₁, p₂, p₃, -, chain, hoff, -⟩ := h
  have answered : (stop.statuses.flatMap Status.carried).filterMap Carried.ref =
      stop.method.responses.filterMap Response.payload := by
    rw [hresponses]
    clear hresponses hoff
    generalize stop.statuses = statuses at chain
    induction chain with
    | nil => rfl
    | @cons a as _ _ _ first _ ih =>
      have here : a.carried.filterMap Carried.ref = a.responses.filterMap Response.payload := by
        obtain ⟨-, scope, o, verb, -, headers, s, -, ⟨-, hm⟩ | ⟨hn, -, response, hr, hnone⟩⟩ := first
        · exact carriedBy_refs (length_media hm)
        · rw [Status.carried, hn, hr, List.filterMap_cons, hnone]
          rfl
      rw [List.flatMap_cons, List.filterMap_append, List.flatMap_cons, List.filterMap_append, here, ih]
  have offered : stop.offered.filterMap Carried.ref =
      stop.method.requestBodies.filterMap RequestBody.payload := by
    unfold Stop.Offered at hoff
    refine carriedBy_refs ?_
    split at hoff
    · next hb =>
      rw [hb, hoff.2.2]
      rfl
    · next v hb =>
      obtain ⟨-, -, -, scope, o, verb, -, hm⟩ := hoff
      rw [length_bodies hm, hb]
      rfl
  rw [Stop.carried, List.filterMap_append, answered, offered, Method.payloads]

namespace Graph.Account

variable {τ : Type} {g' : Graph τ} {visits : List Visit}

/-- The handles that are carried are those of the operations. -/
theorem refs (h : Graph.Account document g' visits) {v : Visit} (hv : v ∈ visits) {stop : Stop}
    (hs : stop ∈ v.stops) : stop.carried.filterMap Carried.ref = stop.method.payloads := by
  obtain ⟨s, t, -, chain, -⟩ := h.run
  obtain ⟨p, q, -, -, -, -, -, -, _, stops, -⟩ := chain.mem hv
  obtain ⟨_, _, made⟩ := stops.mem hs
  exact made.refs

/-- Payloads that the operations of an accepted document carry are settled in its registry. -/
theorem settled (h : Graph.Account document g' visits) :
    Component.Ready document (Component.listed document) g'.registry ∧
      ∀ c ∈ visits.flatMap Visit.carried, c.Settled g'.registry := by
  obtain ⟨s, t, hc, chain, hr⟩ := h.run
  have ready := (Component.collect_collected rfl hc).ready
  have all : Settling document s t (visits.flatMap Visit.carried) :=
    .chain (fun _ _ _ => settling_visit) chain ready.sound
  rw [hr]
  exact ⟨ready.of_grows all.sound all.grows, all.settled⟩

end Graph.Account

variable {τ : Type} {g g' : Graph τ}

/-- Payloads with a schema in place share a handle exactly if their schemas are the same up to the
order of keys. The handle leads to a model, and never to that of a component. -/
theorem payloads_shared_iff_alike (h : Graph.Accepts g document g') :
    ∃ visits, Graph.Account document g' visits ∧
      (∀ v ∈ visits, ∀ stop ∈ v.stops,
        stop.carried.filterMap Carried.ref = stop.method.payloads) ∧
      (∀ c ∈ visits.flatMap Visit.carried, ∀ d ∈ visits.flatMap Visit.carried, ∀ a b,
        c.inline? = some a → d.inline? = some b → (c.ref = d.ref ↔ Json.Alike a b)) ∧
      ∀ c ∈ visits.flatMap Visit.carried, ∀ a, c.inline? = some a →
        ∃ name, c.ref = some (.named name) ∧ g'.registry.contains name = true ∧
          ∀ e ∈ Component.listed document, Component.canonical g'.registry e ≠ name := by
  obtain ⟨visits, account⟩ := h.account
  obtain ⟨ready, settled⟩ := account.settled
  have coherent := ready.sound.1
  refine ⟨visits, account, fun v hv stop hs => account.refs hv hs, fun c hc d hd a b ha hb => ?_,
    fun c hc a ha => ?_⟩
  · obtain ⟨name, hcn, hcl⟩ := settled c hc a ha
    obtain ⟨other, hdn, hdl⟩ := settled d hd b hb
    rw [hcn, hdn, ← Json.canonical_eq_iff]
    constructor
    · intro he
      obtain rfl : name = other := congrArg Ref.name (Option.some.inj he)
      exact coherent.content_unique hcl hdl
    · intro he
      rw [he, hdl] at hcl
      rw [Option.some.inj hcl]
  · obtain ⟨name, hcn, hcl⟩ := settled c hc a ha
    refine ⟨name, hcn, coherent.model_of_content hcl, fun e he hen => ?_⟩
    obtain ⟨known, hk⟩ := ready.named e he
    rw [Component.canonical_of_named hk] at hen
    exact coherent.apart (fun undeclared => undeclared e he rfl) (hen ▸ hk) hcl

/-- A description of an operation whose statuses carry these schemas, the first of which is also
that of a component. -/
def statusSchemas (first second third : Json) : Json :=
  let status (schema : Json) : Json :=
    .obj [("content", .obj [("application/json", .obj [("schema", schema)])])]
  .obj [("openapi", .str "3.0.0"),
    ("components", .obj [("schemas", .obj [("Pet", first)])]),
    ("paths", .obj [("/pets", .obj [("get", .obj [("responses", .obj [("200", status first),
      ("201", status second), ("202", status third)])])])])]

/-- A schema, the same schema again, and a list of another one. -/
def statusSchemas.pets : Json :=
  statusSchemas (.obj [("properties", .obj [("name", .obj [])])])
    (.obj [("properties", .obj [("name", .obj [])])])
    (.obj [("type", .str "array"), ("items", .obj [("properties", .obj [("tag", .obj [])])])])

/-- The first two statuses share a handle, the third one has a handle of its own, and neither is
that of the component. -/
theorem payloads_shared_iff_alike_pets :
    Graph.Accepts (Graph.empty : Graph Unit) statusSchemas.pets
        (Graph.empty.parse statusSchemas.pets none).graph ∧
      ((Graph.empty.parse statusSchemas.pets none : Graph.Change Unit).graph.methods.flatMap
        fun x => x.2.payloads) = [.named "PetsGetApplicationJson200", .named "PetsGetApplicationJson200",
          .named "PetsGetApplicationJson202"] ∧
      ∃ visits, Graph.Account statusSchemas.pets
          (Graph.empty.parse statusSchemas.pets none : Graph.Change Unit).graph visits ∧
        ∀ c ∈ visits.flatMap Visit.carried, ∀ d ∈ visits.flatMap Visit.carried, ∀ a b,
          c.inline? = some a → d.inline? = some b → (c.ref = d.ref ↔ Json.Alike a b) := by
  have accepted : Graph.Accepts (Graph.empty : Graph Unit) statusSchemas.pets
      (Graph.empty.parse statusSchemas.pets none).graph := .of_isOk (by decide +kernel)
  obtain ⟨visits, account, -, shared, -⟩ := payloads_shared_iff_alike accepted
  exact ⟨accepted, by decide +kernel, visits, account, shared⟩

end ApiGraph
