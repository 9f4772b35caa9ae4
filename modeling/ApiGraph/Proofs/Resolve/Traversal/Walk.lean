import ApiGraph.Proofs.FreeVariant
import ApiGraph.Proofs.Resolve.Traversal

/-! A property that the resolution of nodes hands on holds of the resolution of components and of
operations too. What these leave are the parts of the components and the handles of the
operations. -/

namespace ApiGraph

open Resolving

/-- The handles of a response. -/
def Response.refs (r : Response) : List Ref := r.payload.toList ++ Dict.values r.headers

/-- The handles of an operation. -/
def Method.refs (m : Method) : List Ref :=
  m.pathParams ++ m.queryParams ++ m.headerParams ++ m.pathObject.toList ++ m.queryObject.toList ++
    m.headerObject.toList ++ m.responses.flatMap Response.refs ++
    m.requestBodies.flatMap fun b => b.payload.toList

/-- The handles to the parameters of all places. -/
def Parameter.Groups.refs (g : Parameter.Groups) : List Ref := g.path ++ g.query ++ g.header

namespace Traversal

variable {document node : Json} {T : Traversal document} {self : Resolver} {scope : Scope}
  {p q : Progress} {name : String} {m : Model} {out : Outcome} {ref : Ref}
  {refs more fewer : List Ref} {r s t : Registry}

/-- A run that belongs to no model left these handles. -/
def Leaves (T : Traversal document) (r : Registry) (refs : List Ref) (s : Registry) : Prop :=
  T.parts none r (refs.map .ref) [] s

theorem Leaves.nil : T.Leaves r [] r := T.nothing

theorem Leaves.append (h₁ : T.Leaves r refs s) (h₂ : T.Leaves s more t) :
    T.Leaves r (refs ++ more) t := by
  unfold Leaves
  rw [List.map_append]
  exact T.append h₁ h₂

theorem Leaves.sub (h : T.Leaves r refs s) (sub : fewer ⊆ refs) : T.Leaves r fewer s :=
  parts_links h (List.map_subset _ sub)

theorem Leaves.content {site : Site} {v : Json} {found : Resolved} {location : String}
    (titled : site.IsTitled v none) (keeps : site.owner = true) (settled : site.IsSettled v r)
    (warrant : Warrant none v out.result)
    (resolved : T.node site v r out s)
    (registered : s.assert v out.result none .structural location = .ok (found, t)) :
    T.Leaves r [found.ref] t :=
  T.content extending_none titled keeps settled warrant resolved registered

theorem isSettled_of_ne {site : Site} (h : site.name ≠ "") : site.IsSettled node r :=
  fun he => absurd he h

theorem has_asParameter (name key : String) (entries : List (String × Json)) :
    (Header.asParameter name entries).has key =
      (key == "in" || key == "name" || (Json.obj entries).has key) := by
  have hput (d : Dict String Json) (k : String) (v : Json) :
      ((Dict.put d k v).lookup key).isSome = (key == k || (d.lookup key).isSome) := by
    by_cases hk : (key == k) = true
    · simp [eq_of_beq hk]
    · rw [Dict.lookup_put_of_ne _ _ (by simpa using hk)]
      simp [hk]
  unfold Header.asParameter Json.has Json.get?
  dsimp only
  rw [hput, hput, Bool.or_assoc]

theorem resolveHeader (hself : T.Sound self)
    (h : Runs (Header.resolve document self scope name node) p ref q) :
    T.Leaves p.registry [ref] q.registry := by
  obtain ⟨-, hr⟩ | ⟨entries, m, s, found, t, rfl, hn, hm, ha, rfl, rfl⟩ := Header.resolve_runs h
  · obtain ⟨text, -, resolved⟩ := resolveReference hself hr
    exact T.reference resolved
  · have hp : (Header.asParameter name entries).has "$ref" = false := by
      rw [has_asParameter, hn]
      rfl
    have named : (Header.asParameter name entries).has "name" = true := by
      rw [has_asParameter]
      rfl
    have placed : (Header.asParameter name entries).has "in" = true := by
      rw [has_asParameter]
      rfl
    have other : Schema.formOf (Header.asParameter name entries) none ≠ .schema :=
      Schema.formOf_ne_schema named placed
    have hn : T.node (Site.ofOwner scope "") _ p.registry ⟨.model m, []⟩ s.registry :=
      resolveParameter hself rfl hp hm
    exact Leaves.content (.inr ⟨rfl, other⟩) rfl (fun _ => .inr other) (.parameter rfl named placed) hn
      ha

theorem resolveEachHeader (hself : T.Sound self) {entries : List (String × Json)}
    {headers : Dict String Ref} (h : Runs (Header.resolveEach document self scope entries) p headers q) :
    T.Leaves p.registry (Dict.values headers) q.registry := by
  induction entries generalizing p headers with
  | nil =>
    obtain ⟨rfl, rfl⟩ := runs_pure.1 h
    exact Leaves.nil
  | cons entry rest ih =>
    obtain ⟨ref, more, s, hr, hm, rfl⟩ := Header.resolveEach_runs h
    exact Leaves.append (resolveHeader hself hr) (ih hm)

theorem resolveHeaders (hself : T.Sound self) {v : Json} {headers : Dict String Ref}
    (h : Runs (Header.resolveAll document self scope v) p headers q) :
    T.Leaves p.registry (Dict.values headers) q.registry := by
  obtain ⟨rfl, rfl⟩ | ⟨entries, -, he⟩ := Header.resolveAll_runs h
  · exact Leaves.nil
  · exact resolveEachHeader hself he

/-- A declared response or request body leaves no links of its own. -/
theorem resolveHolder (hself : T.Sound self) {kind : Kind}
    (h : Runs (Header.resolveHolder document self scope kind name node) p m q) :
    T.parts none p.registry m.inner [] q.registry := by
  obtain ⟨headers, hh, -, -, -, hd, -, hb, -⟩ := Header.resolveHolder_runs h
  exact parts_links (resolveHeaders hself hh) (by simp [Model.inner, hd, hb])

/-- A component leaves the parts of the model that it is resolved into, or its handle. -/
theorem resolveComponent {e : Component.Entry} {link : Link Model}
    (settled : Component.canonical p.registry e = "" → "" ∈ p.registry.taken)
    (titled : Component.Names document (Component.canonical p.registry e))
    (h : Runs (Component.resolve (resolveNode document) scope e) p link q) :
    T.parts none p.registry link.inner [] q.registry := by
  have hself := sound_resolveNode T
  have inner {site : Site} {v : Json} {out : Outcome} {s : Registry}
      (here : site.name = Component.canonical p.registry e) (resolved : T.node site v p.registry out s) :
      T.parts none p.registry out.result.inner [] s :=
    T.inner extending_none (fun _ => here ▸ titled) (fun empty => .inl (settled (here ▸ empty)))
      resolved
  obtain ⟨scope', entries, m, he, hr, hm, rfl, -⟩ | ⟨scope', out, ho, rfl, -⟩ := Component.resolve_runs h
  · have hp : (Header.asParameter e.name entries).has "$ref" = false := by
      rw [has_asParameter, ← he, hr]
      rfl
    have hn : T.node (Site.ofOwner scope' (Component.canonical p.registry e)) _ p.registry
        ⟨.model m, []⟩ q.registry := resolveParameter hself rfl hp hm
    exact inner rfl hn
  · by_cases hs : { Site.ofOwner scope' (Component.canonical p.registry e) with
        hint := e.group.hint : Site }.isOpen
    · exact inner rfl (hself hs ho)
    -- A response or a request body leaves nothing of its own.
    obtain ⟨depth, hd⟩ := resolveNode_runs ho
    have hself := sound_resolveWithin T depth
    obtain ⟨hobj, ⟨hf, ref, hr, rfl⟩ | ⟨hf, m, hm, rfl⟩ | ⟨hf, m, hm, rfl⟩ |
      ⟨-, kind, m, -, hm, rfl⟩ | ⟨hf, hm⟩⟩ := resolveForm_runs hd
    · obtain ⟨text, -, resolved⟩ := resolveReference hself hr
      exact T.reference resolved
    · exact inner rfl (resolveSecurityScheme hobj (Schema.plain_of_formOf hf nofun) hf hm)
    · exact inner rfl (resolveParameter hself hobj (Schema.plain_of_formOf hf nofun) hm)
    · exact resolveHolder hself hm
    · exact inner rfl (resolveSchema hself hobj (Schema.plain_of_formOf hf nofun) hf hm)

/-- A component that is resolved into a model is a node that keeps what it depends on, resolved under
the name of the component; a response or a request body holds nothing. -/
theorem resolveComponent_model (T : Traversal document) {e : Component.Entry}
    (h : Runs (Component.resolve (resolveNode document) scope e) p (.model m) q) :
    (∃ site v needs, site.owner = true ∧ site.name = Component.canonical p.registry e ∧
      T.node site v p.registry ⟨.model m, needs⟩ q.registry) ∨
    (m.kind = .response ∨ m.kind = .requestBody) ∧ m.name = Component.canonical p.registry e ∧
      m.inner = [] := by
  have hself := sound_resolveNode T
  obtain ⟨scope', entries, k, he, hr, run, hk, -⟩ | ⟨scope', ⟨result, needs⟩, run, hout, -⟩ :=
    Component.resolve_runs h
  · obtain rfl := Link.model.inj hk
    have hp : (Header.asParameter e.name entries).has "$ref" = false := by
      rw [has_asParameter, ← he, hr]
      rfl
    exact .inl ⟨Site.ofOwner scope' (Component.canonical p.registry e), _, [], rfl, rfl,
      resolveParameter hself rfl hp run⟩
  obtain rfl : Link.model m = result := hout
  obtain ⟨depth, within⟩ := resolveNode_runs run
  have hself := sound_resolveWithin T depth
  let site : Site := { Site.ofOwner scope' (Component.canonical p.registry e) with hint := e.group.hint }
  obtain ⟨object, ⟨-, ref, -, hk⟩ | ⟨form, k, made, hk⟩ | ⟨form, k, made, hk⟩ |
    ⟨-, kind, k, holder, made, hk⟩ | ⟨form, made⟩⟩ := resolveForm_runs within
  · cases hk
  · cases hk
    exact .inl ⟨site, _, _, rfl, rfl,
      resolveSecurityScheme object (Schema.plain_of_formOf form (by decide)) form made⟩
  · cases hk
    exact .inl ⟨site, _, _, rfl, rfl, resolveParameter hself object (Schema.plain_of_formOf form (by decide)) made⟩
  · cases hk
    obtain ⟨headers, -, name, same, -, dependencies, -, branches, -⟩ := Header.resolveHolder_runs made
    refine .inr ⟨holder.imp same.trans same.trans, name, ?_⟩
    rw [Model.inner, dependencies, branches]
    rfl
  · exact .inl ⟨site, _, _, rfl, rfl,
      resolveSchema hself object (Schema.plain_of_formOf form (by decide)) form made⟩

/-- A parameter of an operation leaves the handles of its groups. -/
theorem resolveInto {groups groups' : Parameter.Groups}
    (h : Runs (Parameter.resolveInto (resolveNode document) scope groups node) p groups' q) :
    ∃ refs, T.Leaves p.registry refs q.registry ∧ groups'.refs ⊆ groups.refs ++ refs := by
  obtain ⟨hc, out, s, found, t, hs, ha, rfl, hg⟩ := Parameter.resolveInto_runs h
  obtain ⟨other, warrant⟩ : Schema.formOf node (some .parameter) ≠ .schema ∧
      Warrant none node out.result := by
    obtain ⟨_, hf⟩ := resolveNode_runs hs
    have ho := (resolveForm_runs hf).1
    cases hr : node.has "$ref" with
    | true => exact ⟨by simp [Schema.formOf, hr], .reference hr⟩
    | false =>
      simp only [ho, hr, Bool.true_and, Bool.not_false, Bool.not_eq_false', Bool.and_eq_true] at hc
      exact ⟨Schema.formOf_ne_schema hc.1 hc.2, .parameter rfl hc.1 hc.2⟩
  have hl : T.Leaves p.registry [found.ref] q.registry := Leaves.content (.inr ⟨rfl, other⟩) rfl
    (fun _ => .inr other) warrant (sound_resolveNode T ⟨by simp, by simp⟩ hs) ha
  refine ⟨[found.ref], hl, ?_⟩
  obtain ⟨-, rfl⟩ | ⟨m, place, -, rfl⟩ := hg
  · exact List.subset_append_left _ _
  · intro ref hr
    cases place <;> simp only [Parameter.Groups.refs, Parameter.Groups.add, List.mem_append] at hr ⊢ <;>
      tauto

theorem resolveFrom {params : List Json} {i : Nat} {groups groups' : Parameter.Groups}
    (h : Runs (Parameter.resolveFrom (resolveNode document) scope i params groups) p groups' q) :
    ∃ refs, T.Leaves p.registry refs q.registry ∧ groups'.refs ⊆ groups.refs ++ refs := by
  induction params generalizing i p groups groups' with
  | nil =>
    obtain ⟨rfl, rfl⟩ := runs_pure.1 h
    exact ⟨[], Leaves.nil, List.subset_append_left _ _⟩
  | cons param rest ih =>
    obtain ⟨mid, s, hm, hr⟩ := Parameter.resolveFrom_runs h
    obtain ⟨refs, hl, hs⟩ := resolveInto (T := T) hm
    obtain ⟨more, hl', hs'⟩ := ih hr
    refine ⟨refs ++ more, hl.append hl', List.Subset.trans hs' ?_⟩
    rw [← List.append_assoc]
    exact List.append_subset.2 ⟨List.subset_append_of_subset_left _ hs, List.subset_append_right _ _⟩

theorem resolveParameters {params : List Json} {groups : Parameter.Groups}
    (h : Runs (Parameter.resolveAll (resolveNode document) scope params) p groups q) :
    T.Leaves p.registry groups.refs q.registry := by
  obtain ⟨refs, hl, hs⟩ := resolveFrom (T := T) h
  exact hl.sub (by simpa [Parameter.Groups.refs] using hs)

theorem gather {refs : List Ref} {ref? : Option Ref} (identifier : IsIdentifier name)
    (h : Runs (Parameter.gather scope refs name) p ref? q) :
    T.Leaves p.registry ref?.toList q.registry := by
  obtain ⟨rfl, rfl⟩ | ⟨ms, m, found, t, hg, rfl, hk, hs, hd, hb, ha, rfl, rfl⟩ :=
    Parameter.gather_runs h
  · exact Leaves.nil
  · exact T.gathered hg hd hb ⟨by rw [hk]; rfl, Or.inl (by rw [hs]; rfl)⟩ hs identifier ha

theorem resolvePayload {schema : Json} {payload : Payload} (hself : T.Sound self)
    (identifier : IsIdentifier name)
    (h : Runs (Payload.resolve self scope name schema) p payload q) :
    T.Leaves p.registry payload.ref.toList q.registry := by
  obtain ⟨rfl, -, hr⟩ | ⟨v, scope', array, registers, hv⟩ := Payload.resolve_runs h
  · rw [hr]
    exact Leaves.nil
  · obtain ⟨out, s, found, t, hs, ha, rfl, rfl⟩ := Payload.resolveRegistered_runs hv
    exact Leaves.content (.inl identifier) rfl (isSettled_of_ne identifier.1) (.payload rfl registers)
      (hself (Site.isOpen_of_hint rfl) hs) ha

theorem resolveResponseMedia {o : Occasion} {verb : Verb} {status : String}
    {headers : Dict String Ref} {content : List (String × Json)} {responses : List Response}
    (hself : T.Sound self) (hv : o.verb = verb.word)
    (h : Runs (Response.resolveMedia self scope o status headers node content) p responses q) :
    ∃ refs, T.Leaves p.registry refs q.registry ∧
      responses.flatMap Response.refs ⊆ Dict.values headers ++ refs := by
  induction content generalizing p responses with
  | nil =>
    obtain ⟨rfl, rfl⟩ := runs_pure.1 h
    exact ⟨[], Leaves.nil, List.nil_subset _⟩
  | cons entry rest ih =>
    obtain ⟨-, payload, s, response, more, hp, hm, rfl, -, -, hr, hh, -⟩ :=
      Response.resolveMedia_runs h
    obtain ⟨refs, hl, hs⟩ := ih hm
    refine ⟨payload.ref.toList ++ refs,
      (resolvePayload hself (Occasion.isIdentifier_payloadName hv _ _) hp).append hl, ?_⟩
    rw [List.flatMap_cons, Response.refs, hr, hh]
    intro ref hx
    have := @hs ref
    simp only [List.mem_append] at hx this ⊢
    tauto

theorem resolveResponse {o : Occasion} {verb : Verb} {status : String} {responses : List Response}
    (hself : T.Sound self) (hv : o.verb = verb.word)
    (h : Runs (Response.resolveStatus document self scope o status node) p responses q) :
    T.Leaves p.registry (responses.flatMap Response.refs) q.registry := by
  obtain ⟨v, headers, s, -, hh, ⟨entries, -, -, hm⟩ | ⟨-, rfl, response, rfl, -, -, hr, hd, -⟩⟩ :=
    Response.resolveStatus_runs h
  · obtain ⟨refs, hl, hs⟩ := resolveResponseMedia hself hv hm
    exact ((resolveHeaders hself hh).append hl).sub hs
  · refine (resolveHeaders hself hh).sub ?_
    simp [Response.refs, hr, hd]

theorem resolveResponses {o : Occasion} {verb : Verb} {v : Json} {responses : List Response}
    (hself : T.Sound self) (hv : o.verb = verb.word)
    (h : Runs (Response.resolveAll document self scope o v) p responses q) :
    T.Leaves p.registry (responses.flatMap Response.refs) q.registry := by
  obtain ⟨entries, -, he⟩ := Response.resolveAll_runs h
  clear h
  induction entries generalizing p responses with
  | nil =>
    obtain ⟨rfl, rfl⟩ := runs_pure.1 he
    exact Leaves.nil
  | cons entry rest ih =>
    obtain ⟨here, more, s, hh, hm, rfl⟩ := Response.resolveEach_runs he
    rw [List.flatMap_append]
    exact (resolveResponse hself hv hh).append (ih hm)

theorem resolveBodies {o : Occasion} {verb : Verb} {bodies : List RequestBody}
    (hself : T.Sound self) (hv : o.verb = verb.word)
    (h : Runs (RequestBody.resolveAll document self scope o node) p bodies q) :
    T.Leaves p.registry (bodies.flatMap fun b => b.payload.toList) q.registry := by
  have media : ∀ (scope : Scope) (v : Json) (entries : List (String × Json))
      (shared : Option Payload) (p : Progress) (bodies : List RequestBody),
      Runs (RequestBody.resolveMedia self scope o v shared entries) p bodies q →
        ∃ refs, T.Leaves p.registry refs q.registry ∧
          (bodies.flatMap fun b => b.payload.toList) ⊆
            (shared.bind Payload.ref).toList ++ refs := by
    intro scope v entries
    induction entries with
    | nil =>
      intro shared p bodies h
      obtain ⟨rfl, rfl⟩ := runs_pure.1 h
      exact ⟨[], Leaves.nil, List.nil_subset _⟩
    | cons entry rest ih =>
      intro shared p bodies h
      obtain ⟨-, payload, s, body, more, hp, hm, rfl, -, hr, -⟩ :=
        RequestBody.resolveMedia_runs h
      obtain ⟨refs, hl, hs⟩ := ih _ _ _ hm
      have hs : ((body :: more).flatMap fun b => b.payload.toList) ⊆ payload.ref.toList ++ refs := by
        rw [List.flatMap_cons, hr]
        exact List.append_subset.2 ⟨List.subset_append_left _ _, hs⟩
      obtain ⟨rfl, rfl⟩ | ⟨rfl, hp⟩ := hp
      · exact ⟨refs, hl, hs⟩
      · exact ⟨_, (resolvePayload hself (Occasion.isIdentifier_payloadName hv _ _) hp).append hl, hs⟩
  obtain ⟨v, -, ⟨-, rfl, rfl⟩ | ⟨entries, -, -, hm⟩⟩ := RequestBody.resolveAll_runs h
  · exact Leaves.nil
  · obtain ⟨refs, hl, hs⟩ := media _ _ _ _ _ _ hm
    exact hl.sub hs

/-- Names of aggregates are identifiers, also those of an operation without a name. -/
theorem isIdentifier_aggregate {taken : List String} {given : List Char} {verb path suffix : String}
    (suffixed : IsIdentifier suffix) :
    IsIdentifier (Registry.freeVariant taken
      (String.ofList (Naming.method given verb.toList path.toList)) ++ suffix) := by
  refine ⟨fun empty => suffixed.1 (String.append_eq_empty_iff.1 empty).2, fun c hc => ?_⟩
  rw [String.toList_append] at hc
  refine (List.mem_append.1 hc).elim ((appends_freeVariant taken _).isWord (fun d hd => ?_) c)
    (suffixed.2 c)
  rw [String.toList_ofList] at hd
  exact Naming.isWord_of_mem_method hd

/-- The groups of an operation are gathered under names that begin with the name of the operation. -/
theorem gatherGroups {taken : List String} {given : List Char} {verb path : String}
    {as bs cs : List Ref} {a? b? c? : Option Ref} {p₁ p₂ : Progress}
    (hn : name = Registry.freeVariant taken
      (String.ofList (Naming.method given verb.toList path.toList)))
    (h₁ : Runs (Parameter.gather scope as (name ++ "Path")) p a? p₁)
    (h₂ : Runs (Parameter.gather scope bs (name ++ "Query")) p₁ b? p₂)
    (h₃ : Runs (Parameter.gather scope cs (name ++ "Headers")) p₂ c? q) :
    T.Leaves p.registry (a?.toList ++ b?.toList ++ c?.toList) q.registry := by
  rw [hn] at h₁ h₂ h₃
  exact ((gather (isIdentifier_aggregate (by decide +kernel)) h₁).append
    (gather (isIdentifier_aggregate (by decide +kernel)) h₂)).append
    (gather (isIdentifier_aggregate (by decide +kernel)) h₃)

/-- An operation leaves its handles. -/
theorem resolveMethod {verb : Verb} {path : String} {item operation : Json} {m : Method}
    (h : Runs (Method.resolve document (resolveNode document) scope verb path item operation) p m q) :
    T.Leaves p.registry m.refs q.registry := by
  have hself := sound_resolveNode T
  obtain ⟨wanted, params, o, p₁, p₂, p₃, p₄, p₅, p₆, ⟨given, rfl⟩, -, hv, hn, hr, -, -, -, hg, h₁, h₂, h₃,
    h₄, h₅, -, -⟩ := Method.resolve_runs h
  have bodies : T.Leaves p₆.registry (m.requestBodies.flatMap fun b => b.payload.toList) q.registry := by
    obtain ⟨-, rfl, hb⟩ | ⟨-, hb⟩ := h₅
    · rw [hb]
      exact Leaves.nil
    · exact resolveBodies hself hv hb
  have params := resolveParameters (T := T) hg
  rw [hr] at params
  refine ((params.append (gatherGroups hn h₁ h₂ h₃)).append (resolveResponses hself hv h₄)).append bodies |>.sub ?_
  simp [Method.refs, Parameter.Groups.refs]

theorem resolveOperations {item : Json} {verbs : List Verb} {methods : List Method}
    (h : Runs (Walk.operations document (resolveNode document) scope name item verbs) p methods q) :
    T.Leaves p.registry (methods.flatMap Method.refs) q.registry := by
  induction verbs generalizing p methods with
  | nil =>
    obtain ⟨rfl, rfl⟩ := runs_pure.1 h
    exact Leaves.nil
  | cons verb rest ih =>
    obtain ⟨-, hr⟩ | ⟨m, more, s, -, hm, hr, rfl⟩ := Walk.operations_runs h
    · exact ih hr
    · have rest := ih hr
      exact (resolveMethod hm).append rest

/-- The operations of a walk. -/
def walkedMethods (walked : List (Path × List Method)) : List Method := walked.flatMap Prod.snd

/-- All operations leave their handles. -/
theorem resolvePaths {walked : List (Path × List Method)}
    (h : Runs (Walk.paths document (resolveNode document) scope) p walked q) :
    T.Leaves p.registry ((walkedMethods walked).flatMap Method.refs) q.registry := by
  replace h := Walk.paths_runs h
  generalize Walk.listed document = entries at h
  induction entries generalizing p walked with
  | nil =>
    obtain ⟨rfl, rfl⟩ := runs_pure.1 h
    exact Leaves.nil
  | cons entry rest ih =>
    rw [List.mapM_cons] at h
    simp only [runs_bind, runs_pure] at h
    obtain ⟨⟨p', methods⟩, s, hp, more, _, hm, rfl, rfl⟩ := h
    obtain ⟨item, s', -, ho, -, -, -, rfl⟩ := Walk.path_runs hp
    have rest := ih hm
    have := (resolveOperations ho).append rest
    rwa [← List.flatMap_append] at this

end Traversal

end ApiGraph
