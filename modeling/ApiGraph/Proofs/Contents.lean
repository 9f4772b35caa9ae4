import ApiGraph.Proofs.Distinct
import ApiGraph.Proofs.Operations
import ApiGraph.Proofs.Payloads

/-! Which nodes are registered by their content. The resolution of a node registers references,
parameters, and schemas that stand for objects; beside these there are only the schemas and the items
that the payloads of operations are registered by. -/

namespace ApiGraph

open Resolving Registry

/-- The nodes that are registered by their content while some schemas are offered as payloads. -/
inductive Enters (offered : Json → Prop) (v : Json) : Prop
  | reference (refers : v.has "$ref" = true)
  | parameter (named : v.has "name" = true) (placed : v.has "in" = true)
  | structured (shape : Schema.isStructured v = true)
  | payload {schema : Json} (mem : offered schema) (registers : Payload.registered? schema = some v)

/-- All contents of a registry are those of such nodes. -/
def Registry.Admits (offered : Json → Prop) (r : Registry) : Prop :=
  ∀ content name, r.structural.lookup content = some name →
    ∃ v, Enters offered v ∧ v.canonical = content

variable {offered : Json → Prop} {document v : Json} {scope : Scope} {site : Site}
  {p q s : Progress} {r t : Registry} {name : String} {m : Model} {out : Outcome} {ref : Ref}

namespace Registry

theorem admits_empty : Registry.empty.Admits offered := nofun

theorem Admits.of_eq (h : r.Admits offered) (same : t.structural = r.structural) :
    t.Admits offered := by
  rwa [Admits, same]

theorem Admits.of_grows {R : String → Prop} (h : t.Admits offered) (g : Grows R r t) : r.Admits offered :=
  fun content name hn => h content name (g.content hn)

theorem Admits.reserve {key : String} (h : r.Admits offered) (reserves : r.reserve key name = (ref, t)) :
    t.Admits offered := by
  obtain rfl := congrArg Prod.snd reserves
  unfold Registry.reserve
  split
  · exact h
  · exact h.of_eq rfl

/-- A registration by content admits the node, any other changes no content. -/
theorem Admits.assert {raw : Json} {parsed : Link Model} {hint : Option String} {space : KeySpace}
    {location : String} {found : Resolved} (h : r.Admits offered)
    (ha : r.assert raw parsed hint space location = .ok (found, t))
    (enters : space = .structural → Enters offered raw) : t.Admits offered := by
  obtain rfl | ⟨k, -, hk⟩ := assert_cases ha
  · exact h
  obtain rfl := congrArg Prod.snd hk
  cases known : r.indexed space (keyFor space raw k hint) with
  | some n =>
    obtain same | ⟨-, entered⟩ := register_known (m := k) known
    · rwa [same]
    · rw [entered]
      exact h.of_eq rfl
  | none =>
    rw [Registry.register_unknown known]
    cases space with
    | named => exact h.of_eq rfl
    | structural =>
      intro content name hn
      obtain ⟨rfl, -⟩ | hn := lookup_put_cases hn
      · exact ⟨raw, enters rfl, rfl⟩
      · exact h content name hn

end Registry

/-- The resolution of a node admits nothing that is only offered as a payload. What is registered
outside of any model may be that. -/
def admitting (document : Json) (offered : Json → Prop) : Traversal document where
  node _ v r out s := (r.Admits offered → s.Admits offered) ∧
    ∀ m, out.result = .model m → Parameter.isObjectShaped m = true → Schema.isStructured v = true
  parts owner r _ _ s := (owner = none → ∀ schema, offered schema) → r.Admits offered → s.Admits offered
  handle r _ _ s := r.Admits offered → s.Admits offered
  nothing _ := id
  append first rest outer hr := rest outer (first outer hr)
  weaken whole _ _ := whole
  member {_ _ _ _ _ _ s out _} _ _ resolved _ hr := by
    cases out.result with
    | ref _ => exact resolved.1 hr
    | model m => exact (resolved.1 hr).of_eq rfl
  item _ resolved _ := resolved.1
  reference resolved _ := resolved
  inner _ _ _ resolved _ := resolved.1
  content {_ _ v _ _ _ _ _ _ _} _ _ _ _ warrant resolved ha outer hr := by
    refine (resolved.1 hr).assert ha fun _ => ?_
    cases warrant with
    | parameter _ named placed => exact .parameter named placed
    | reference refers => exact .reference refers
    | shaped model shaped => exact .structured (resolved.2 _ model shaped)
    | payload none registers => exact .payload (outer none _) registers
  gathered _ _ _ _ _ _ ha _ hr := hr.assert ha nofun
  model resolved _ _ _ _ _ _ _ _ shape _ _ :=
    ⟨resolved (by simp), fun _ hm => Link.model.inj hm ▸ fun shaped => (shape shaped).2⟩
  refers _ resolved := ⟨resolved, nofun⟩
  known _ _ _ := ⟨id, nofun⟩
  remote _ := id
  declared _ _ := id
  followed {_ _ s text _ _ ref _ _} _ _ reserves resolved _ hr := by
    have hs := resolved.1 (hr.reserve reserves)
    split
    · exact hs
    · exact hs.of_eq rfl
  registered _ _ reserves resolved _ ha hr :=
    (resolved.1 (hr.reserve reserves)).assert ha nofun

/-- A run from one state to another admits only what enters while some schemas are offered. -/
def Admitting (offered : Json → Prop) (p q : Progress) : Prop :=
  p.registry.Admits offered → q.registry.Admits offered

namespace Admitting

theorem node (hs : site.isOpen) (h : Runs (resolveNode document site v) p out q) :
    Admitting offered p q :=
  (Traversal.sound_resolveNode (admitting document offered) hs h).1

theorem reference {self : Resolver} (hself : (admitting document offered).Sound self)
    (h : Runs (resolveReference document self scope v) p ref q) : Admitting offered p q := by
  obtain ⟨_, -, resolved⟩ := Traversal.resolveReference hself h
  exact resolved

theorem parameter {self : Resolver} (hself : (admitting document offered).Sound self)
    (ho : v.isObject = true) (plain : v.has "$ref" = false)
    (h : Runs (Parameter.resolve self scope name v) p m q) : Admitting offered p q := by
  have resolved : (admitting document offered).node (.ofOwner scope name) v p.registry
    ⟨.model m, []⟩ q.registry := Traversal.resolveParameter hself ho plain h
  exact resolved.1

theorem header {self : Resolver} (hself : (admitting document offered).Sound self)
    (h : Runs (Header.resolve document self scope name v) p ref q) : Admitting offered p q := by
  obtain ⟨-, hr⟩ | ⟨entries, m, s, found, t, rfl, hn, hm, ha, rfl, rfl⟩ := Header.resolve_runs h
  · exact reference hself hr
  · have has (key : String) := Traversal.has_asParameter name key entries
    have plain : (Header.asParameter name entries).has "$ref" = false := by rw [has, hn]; rfl
    exact fun hp => (parameter hself rfl plain hm hp).assert ha
      fun _ => .parameter (by rw [has]; rfl) (by rw [has]; rfl)

theorem headers {self : Resolver} (hself : (admitting document offered).Sound self)
    {headers : Dict String Ref} (h : Runs (Header.resolveAll document self scope v) p headers q) :
    Admitting offered p q := by
  obtain ⟨rfl, -⟩ | ⟨entries, -, he⟩ := Header.resolveAll_runs h
  · exact id
  clear h
  induction entries generalizing p headers with
  | nil =>
    obtain ⟨-, rfl⟩ := runs_pure.1 he
    exact id
  | cons entry rest ih =>
    obtain ⟨_, _, s, hr, hm, -⟩ := Header.resolveEach_runs he
    exact fun hp => ih hm (header hself hr hp)

theorem component {e : Component.Entry} {link : Link Model}
    (h : Runs (Component.resolve (resolveNode document) scope e) p link q) :
    Admitting offered p q := by
  obtain ⟨scope', entries, m, he, hr, hm, -, -⟩ | ⟨scope', out, ho, -, -⟩ := Component.resolve_runs h
  · have plain : (Header.asParameter e.name entries).has "$ref" = false := by
      rw [Traversal.has_asParameter, ← he, hr]
      rfl
    exact parameter (Traversal.sound_resolveNode _) rfl plain hm
  by_cases hs : { Site.ofOwner scope' (Component.canonical p.registry e) with
      hint := e.group.hint : Site }.isOpen
  · exact node hs ho
  -- a response or a request body registers its headers only
  obtain ⟨depth, hd⟩ := resolveNode_runs ho
  have hself := Traversal.sound_resolveWithin (admitting document offered) depth
  obtain ⟨object, ⟨-, ref, hr, -⟩ | ⟨-, m, hm, -⟩ | ⟨form, m, hm, -⟩ | ⟨-, kind, m, -, hm, -⟩ |
    ⟨form, hm⟩⟩ := resolveForm_runs hd
  · exact reference hself hr
  · obtain ⟨rfl, -⟩ := resolveSecurityScheme_runs hm
    exact id
  · exact parameter hself object (Schema.plain_of_formOf form nofun) hm
  · obtain ⟨_, hh, -⟩ := Header.resolveHolder_runs hm
    exact headers hself hh
  · exact (Traversal.resolveSchema hself object (Schema.plain_of_formOf form nofun) form hm).1

theorem components {es : List Component.Entry} {resolved : List (Component.Entry × Link Model)}
    (h : Runs (Component.resolveEach (resolveNode document) scope es) p resolved q) :
    Admitting offered p q := by
  induction es generalizing p resolved with
  | nil =>
    obtain ⟨-, rfl⟩ := runs_pure.1 h
    exact id
  | cons e es ih =>
    obtain ⟨_, _, _, hl, hm, -⟩ := Component.resolveEach_runs h
    exact fun hp => ih hm (component hl hp)

theorem declared {resolved : List (Component.Entry × Link Model)} {u : Unit}
    (h : Runs (resolved.forM Component.register) p u q) : Admitting offered p q := by
  induction resolved generalizing p with
  | nil =>
    obtain ⟨-, rfl⟩ := runs_pure.1 h
    exact id
  | cons x rest ih =>
    change Runs (Component.register (x.1, x.2) >>= fun _ => rest.forM Component.register) p u q at h
    simp only [runs_bind] at h
    obtain ⟨_, _, hx, hrest⟩ := h
    obtain ⟨-, rfl⟩ | ⟨m, found, r, -, ha, rfl⟩ := Component.register_runs hx
    · exact ih hrest
    · exact fun hp => ih hrest (hp.assert ha nofun)

theorem aliases {order : List (Component.Entry × Ref)} (h : Component.Aliased order p q) :
    Admitting offered p q := by
  induction h with
  | done => exact id
  | next first _ ih =>
    obtain ⟨hb, -⟩ | ⟨m, location, found, r, -, -, ha, rfl⟩ := Component.registerAlias_runs first
    · cases hb
    · exact fun hp => ih (hp.assert ha nofun)

/-- The collection of components admits no payloads. -/
theorem collection {u : Unit}
    (h : Runs (Component.collect document (resolveNode document) scope) .start u q) :
    q.registry.Admits offered := by
  obtain ⟨resolved, s, t, order, he, hf, ho, -⟩ := Component.collect_runs h
  have base {es : List Component.Entry} {r : Registry} (hr : r.Admits offered) :
      (es.foldl Component.reserved r).Admits offered := by
    induction es generalizing r with
    | nil => exact hr
    | cons e es ih => exact ih (hr.reserve rfl)
  exact aliases ho (declared hf (components he (base admits_empty)))

theorem parameters {i : Nat} {params : List Json} {groups groups' : Parameter.Groups}
    (h : Runs (Parameter.resolveFrom (resolveNode document) scope i params groups) p groups' q) :
    Admitting offered p q := by
  induction params generalizing i groups p with
  | nil =>
    obtain ⟨-, rfl⟩ := runs_pure.1 h
    exact id
  | cons param rest ih =>
    obtain ⟨mid, s, hm, hr⟩ := Parameter.resolveFrom_runs h
    obtain ⟨hc, out, s', found, t, hs, ha, rfl, -⟩ := Parameter.resolveInto_runs hm
    obtain ⟨_, hf⟩ := resolveNode_runs hs
    rw [(resolveForm_runs hf).1] at hc
    have enters : Enters offered param := by
      cases plain : param.has "$ref" with
      | true => exact .reference plain
      | false =>
        simp only [plain, Bool.true_and, Bool.not_false, Bool.not_eq_false', Bool.and_eq_true] at hc
        exact .parameter hc.1 hc.2
    exact fun hp => ih hr ((node ⟨by simp, by simp⟩ hs hp).assert ha fun _ => enters)

theorem gather {refs : List Ref} {ref? : Option Ref}
    (h : Runs (Parameter.gather scope refs name) p ref? q) : Admitting offered p q := by
  obtain ⟨rfl, -⟩ | ⟨_, _, _, _, -, -, -, -, -, -, ha, -, rfl⟩ := Parameter.gather_runs h
  · exact id
  · exact fun hp => hp.assert ha nofun

theorem payload {schema : Json} {payload : Payload} (mem : offered schema)
    (h : Runs (Payload.resolve (resolveNode document) scope name schema) p payload q) :
    Admitting offered p q := by
  obtain ⟨rfl, -⟩ | ⟨v, scope', array, registers, hv⟩ := Payload.resolve_runs h
  · exact id
  · obtain ⟨out, s, found, t, hs, ha, -, rfl⟩ := Payload.resolveRegistered_runs hv
    exact fun hp => (node (Site.isOpen_of_hint rfl) hs hp).assert ha fun _ =>
      .payload mem registers

theorem media {o : Occasion} {status : String} {given : Dict String Ref}
    {content : List (String × Json)} {responses : List Response}
    (mem : ∀ media ∈ content, offered (media.2.get "schema"))
    (h : Runs (Response.resolveMedia (resolveNode document) scope o status given v content) p
      responses q) : Admitting offered p q := by
  induction content generalizing p responses with
  | nil =>
    obtain ⟨-, rfl⟩ := runs_pure.1 h
    exact id
  | cons media rest ih =>
    obtain ⟨-, _, _, _, _, hp, hm, -⟩ := Response.resolveMedia_runs h
    exact fun hr => ih (fun m hm => mem m (List.mem_cons_of_mem _ hm)) hm
      (payload (mem media List.mem_cons_self) hp hr)

theorem bodies {o : Occasion} {shared : Option Payload} {content : List (String × Json)}
    {bodies : List RequestBody} (mem : ∀ media ∈ content, offered (media.2.get "schema"))
    (h : Runs (RequestBody.resolveMedia (resolveNode document) scope o v shared content) p bodies q) :
    Admitting offered p q := by
  induction content generalizing p shared bodies with
  | nil =>
    obtain ⟨-, rfl⟩ := runs_pure.1 h
    exact id
  | cons media rest ih =>
    have ih {shared : Option Payload} {p : Progress} {bodies : List RequestBody} :=
      @ih p shared bodies fun m hm => mem m (List.mem_cons_of_mem _ hm)
    obtain ⟨-, _, _, _, _, ⟨-, rfl⟩ | ⟨-, hp⟩, hm, -⟩ := RequestBody.resolveMedia_runs h
    · exact ih hm
    · exact fun hr => ih hm (payload (mem media List.mem_cons_self) hp hr)

/-- Every schema of some media types is carried. -/
theorem offered_of_carriedBy {α : Type} {f : α → Option Ref} {content : List (String × Json)} {as : List α}
    (h : as.length = content.length) (mem : ∀ c ∈ carriedBy content (as.map f), offered c.schema) :
    ∀ media ∈ content, offered (media.2.get "schema") := by
  induction as generalizing content with
  | nil =>
    rw [List.eq_nil_of_length_eq_zero h.symm]
    nofun
  | cons a as ih =>
    cases content with
    | nil => cases h
    | cons media rest =>
      rw [carriedBy, List.map_cons, List.zipWith_cons_cons, List.forall_mem_cons] at mem
      exact List.forall_mem_cons.2 ⟨mem.1, ih (Nat.succ.inj h) mem.2⟩

theorem status {a : Status} (mem : ∀ c ∈ a.carried, offered c.schema) (h : a.Made document p q) :
    Admitting offered p q := by
  obtain ⟨-, _, _, _, -, _, s, hh, ⟨-, hm⟩ | ⟨-, rfl, -⟩⟩ := h
  · exact fun hp => media (offered_of_carriedBy (length_media hm) mem) hm
      (headers (Traversal.sound_resolveNode _) hh hp)
  · exact headers (Traversal.sound_resolveNode _) hh

theorem prepared {m : Method} (h : m.Prepared document p q) : Admitting offered p q := by
  obtain ⟨_, _, p₁, _, _, _, same, hg, h₁, h₂, h₃⟩ := h
  exact fun hp => gather h₃ (gather h₂ (gather h₁ (parameters hg (hp.of_eq (congrArg structural same)))))

/-- Steps that admit nothing but what is offered do so together. -/
theorem chain {α : Type} {step : α → Progress → Progress → Prop} {as : List α}
    (one : ∀ a ∈ as, ∀ p q, step a p q → Admitting offered p q) (h : Chain step as p q) :
    Admitting offered p q := by
  induction h with
  | nil => exact id
  | cons first _ ih =>
    exact fun hp => ih (fun a ha => one a (List.mem_cons_of_mem _ ha))
      (one _ List.mem_cons_self _ _ first hp)

theorem stop {item : Json} {stop : Stop} (mem : ∀ c ∈ stop.carried, offered c.schema)
    (h : stop.Made document name item p q) : Admitting offered p q := by
  obtain ⟨-, -, -, p₁, p₂, p₃, hprep, statuses, offer, hq⟩ := h
  have answered : Admitting offered p₁ p₂ := chain (fun a ha _ _ => status fun c hc =>
    mem c (List.mem_append_left _ (List.mem_flatMap.2 ⟨a, ha, hc⟩))) statuses
  have asked : Admitting offered p₂ p₃ := by
    have mem : ∀ c ∈ stop.offered, offered c.schema := fun c hc => mem c (List.mem_append_right _ hc)
    unfold Stop.Offered at offer
    unfold Stop.offered at mem
    split at offer
    · obtain ⟨-, rfl, -⟩ := offer
      exact id
    · next v hb =>
      obtain ⟨-, -, -, _, _, _, -, hm⟩ := offer
      rw [hb] at mem
      exact bodies (offered_of_carriedBy (length_bodies hm) mem) hm
  exact fun hp => (asked (answered (prepared hprep hp))).of_eq (congrArg structural hq)

theorem visit {v : Visit} (mem : ∀ c ∈ v.carried, offered c.schema) (h : v.Made document p q) :
    Admitting offered p q := by
  obtain ⟨-, -, -, -, -, -, s, stops, rfl⟩ := h
  have all : Admitting offered p s := chain (fun a ha _ _ => stop fun c hc =>
    mem c (List.mem_flatMap.2 ⟨a, ha, hc⟩)) stops
  exact all

end Admitting

/-- A state of a walk through a document once its components are collected: between the two there are
only runs of the resolution. -/
def Progress.Walking (document : Json) (p : Progress) : Prop :=
  ∃ s, Runs (Component.collect document (resolveNode document) (Scope.root.phase .named)) .start () s ∧
    s.Leads document p

theorem Progress.Walking.admits (h : p.Walking document) : p.registry.Admits fun _ => True := by
  obtain ⟨s, collected, leads⟩ := h
  obtain ⟨_, left⟩ := leads (admitting document fun _ => True)
  exact left (fun _ _ => trivial) (Admitting.collection collected)

/-- In the registry that an accepted document leaves, all contents are those of references,
parameters and objects, or of what the payloads of its operations are registered by. -/
theorem Graph.Account.admits {τ : Type} {g : Graph τ} {visits : List Visit}
    (h : Graph.Account document g visits) :
    g.registry.Admits fun schema => ∃ c ∈ visits.flatMap Visit.carried, c.schema = schema := by
  obtain ⟨s, t, collected, walked, hr⟩ := h.run
  rw [hr]
  exact Admitting.chain (fun v hv _ _ => Admitting.visit fun c hc =>
    ⟨c, List.mem_flatMap.2 ⟨v, hv, hc⟩, rfl⟩) walked (Admitting.collection collected)

end ApiGraph
