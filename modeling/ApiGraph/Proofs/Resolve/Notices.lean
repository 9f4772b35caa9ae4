import ApiGraph.Proofs.Pointer
import ApiGraph.Proofs.Registry.Coherence
import ApiGraph.Proofs.Resolve.Walk

/-! The notices of a walk. Nodes are resolved without a notice of any entity, so that the entities
of a walk are its operations and paths, in order, and then its models. A snapshot records what was
delivered and nothing else. -/

namespace ApiGraph

open Resolving

/-- The entity of a notice with its categories; a warning has none. -/
def Notice.entity? : Notice → Option (List Kind × Entity)
  | .entity categories e => some (categories, e)
  | .warning _ => none

/-- The text of a warning. -/
def Notice.warning? : Notice → Option String
  | .entity _ _ => none
  | .warning text => some text

/-- The entities that were left so far. -/
def Progress.emitted (p : Progress) : List (List Kind × Entity) := p.notices.filterMap Notice.entity?

/-- The warnings that were left so far. -/
def Progress.warned (p : Progress) : List String := p.notices.filterMap Notice.warning?

/-- What a run has left so far: entities, and the names of operations. -/
def Progress.trail (p : Progress) : List (List Kind × Entity) × List String :=
  (p.emitted, p.methodNames)

/-- A run leaves these warnings and no other notice, names no operation, and gives no name to a key that
does not begin with a number sign, as what leads into the document does. -/
structure Progress.Tells (p : Progress) (texts : List String) (q : Progress) : Prop where
  notices : q.notices = p.notices ++ texts.map .warning
  methodNames : q.methodNames = p.methodNames
  outside : ∀ key, key.toList.head? ≠ some '#' →
    q.registry.named.lookup key = p.registry.named.lookup key

/-- A run that leaves no warning either. -/
def Progress.Quiet (p q : Progress) : Prop := p.Tells [] q

/-- A resolver all of whose runs are quiet. -/
def Silent (self : Resolver) : Prop :=
  ∀ ⦃site v p out q⦄, Runs (self site v) p out q → p.Quiet q

namespace Registry

variable {r s : Registry} {key : String}

theorem named_register_structural (r : Registry) (content : String) (m : Model) :
    (r.register .structural content m).2.named = r.named := by
  unfold register
  split
  · split <;> rfl
  · rfl

theorem lookup_register_named {name : String} (other : name ≠ key) (m : Model) :
    (r.register .named key m).2.named.lookup name = r.named.lookup name := by
  unfold register
  split
  · split <;> rfl
  · exact Dict.lookup_put_of_ne _ _ (by simpa using other)

theorem named_assert_content {v : Json} {link : Link Model} {location : String} {found : Resolved}
    (h : r.assert v link none .structural location = .ok (found, s)) : s.named = r.named := by
  obtain rfl | ⟨m, rfl, hm⟩ := assert_cases h
  · rfl
  · obtain rfl : _ = s := congrArg Prod.snd hm
    exact named_register_structural _ _ _

theorem lookup_assert_named {v : Json} {link : Link Model} {name location : String} {found : Resolved}
    (nonempty : key ≠ "") (other : name ≠ key)
    (h : r.assert v link (some key) .named location = .ok (found, s)) :
    s.named.lookup name = r.named.lookup name := by
  obtain rfl | ⟨m, rfl, hm⟩ := assert_cases h
  · rfl
  · obtain rfl : _ = s := congrArg Prod.snd hm
    exact lookup_register_named (by simpa [keyFor, nonempty] using other) m

end Registry

namespace Progress

variable {p q s : Progress} {r : Registry} {texts more : List String} {key : String}

/-- The entities and names that were left are the same. -/
theorem Tells.trail (h : p.Tells texts q) : q.trail = p.trail := by
  have none : (texts.map Notice.warning).filterMap Notice.entity? = [] := by
    rw [List.filterMap_map]
    exact List.filterMap_eq_nil_iff.2 fun _ _ => rfl
  rw [Progress.trail, Progress.emitted, h.notices, List.filterMap_append, none, List.append_nil,
    h.methodNames]
  rfl

/-- The warnings of a run come after those that were left before. -/
theorem Tells.warned (h : p.Tells texts q) : q.warned = p.warned ++ texts := by
  rw [Progress.warned, h.notices, List.filterMap_append, List.filterMap_map]
  exact congrArg _ (List.filterMap_some)

theorem Tells.trans (h : p.Tells texts s) (h' : s.Tells more q) : p.Tells (texts ++ more) q where
  notices := by rw [h'.notices, h.notices, List.map_append, List.append_assoc]
  methodNames := h'.methodNames.trans h.methodNames
  outside key far := (h'.outside key far).trans (h.outside key far)

namespace Quiet

theorem refl (p : Progress) : p.Quiet p := ⟨(List.append_nil _).symm, rfl, fun _ _ => rfl⟩

theorem trans (h : p.Quiet s) (h' : s.Quiet q) : p.Quiet q := Tells.trans h h'

theorem of_registry (h : ∀ key, key.toList.head? ≠ some '#' →
    r.named.lookup key = p.registry.named.lookup key) : p.Quiet { p with registry := r } :=
  ⟨(List.append_nil _).symm, rfl, h⟩

theorem of_named (h : r.named = p.registry.named) : p.Quiet { p with registry := r } :=
  of_registry fun _ _ => by rw [h]

theorem claimed (p : Progress) (link : Link Model) : p.Quiet (p.claimed link) :=
  of_named (by cases link <;> rfl)

theorem content {v : Json} {link : Link Model} {location : String} {found : Resolved}
    (h : p.registry.assert v link none .structural location = .ok (found, r)) :
    p.Quiet { p with registry := r } :=
  of_named (Registry.named_assert_content h)

theorem ne_of_head {text : String} (here : text.toList.head? = some '#')
    (far : key.toList.head? ≠ some '#') : key ≠ text := by
  rintro rfl
  exact far here

theorem redirect {text : String} (here : text.toList.head? = some '#') (p : Progress) (name : String) :
    p.Quiet { p with registry := p.registry.redirect text name } :=
  of_registry fun _ far => Dict.lookup_put_of_ne _ _ (by simpa using ne_of_head here far)

theorem reserve {text name : String} {ref : Ref} (here : text.toList.head? = some '#')
    (h : p.registry.reserve text name = (ref, r)) : p.Quiet { p with registry := r } := by
  refine of_registry fun key far => ?_
  rw [show r = (p.registry.reserve text name).2 from (congrArg Prod.snd h).symm]
  unfold Registry.reserve
  split
  · rfl
  · exact Dict.lookup_put_of_ne _ _ (by simpa using ne_of_head here far)

theorem declare {v : Json} {link : Link Model} {text location : String} {found : Resolved}
    (here : text.toList.head? = some '#')
    (h : p.registry.assert v link (some text) .named location = .ok (found, r)) :
    p.Quiet { p with registry := r } := by
  have nonempty : text ≠ "" := by
    rintro rfl
    cases here
  exact of_registry fun _ far => Registry.lookup_assert_named nonempty (ne_of_head here far) h

/-- A warning at the end of a quiet run is all that is left. -/
theorem warn (h : p.Quiet q) (text : String) :
    p.Tells [text] { q with notices := q.notices ++ [.warning text] } where
  notices := by
    rw [h.notices, List.map_nil, List.append_nil]
    rfl
  methodNames := h.methodNames
  outside := h.outside

end Quiet

end Progress

variable {document node : Json} {self : Resolver} {scope : Scope} {site : Site} {p q : Progress}
  {name parent : String} {required : List String} {m m' : Model} {out : Outcome} {f : Field}
  {fs : List Field} {ref : Ref} {links needs : List (Link Model)}

theorem silent_resolveReference (hself : Silent self)
    (h : Runs (resolveReference document self scope node) p ref q) : p.Quiet q := by
  obtain ⟨text, -, ⟨-, -, rfl⟩ | ⟨-, -, rfl⟩ | ⟨-, -, hf⟩⟩ := resolveReference_runs h
  · exact .refl _
  · exact .refl _
  · obtain ⟨target, reserved, r, out, s, leads, hr, hs, hc⟩ := followReference_runs hf
    have here := Pointer.head_of_resolve leads
    have entered := (Progress.Quiet.reserve here hr).trans (hself hs)
    obtain ⟨-, rfl⟩ | ⟨m, found, t, -, ha, -, rfl⟩ := hc
    · split
      · exact entered
      · exact entered.trans (.redirect here _ _)
    · exact entered.trans (.declare here ha)

namespace Schema

theorem silent_resolveMember (hself : Silent self)
    (h : Runs (resolveMember self scope name required node) p out q) : p.Quiet q := by
  obtain ⟨s, hs, rfl⟩ := resolveMember_runs h
  exact (hself hs).trans (.claimed _ _)

theorem silent_resolveFields (hself : Silent self) {entries : List (String × Json)}
    (h : Runs (resolveFields document self scope parent required entries) p (fs, needs) q) :
    p.Quiet q := by
  induction entries generalizing p fs needs with
  | nil =>
    obtain ⟨-, rfl⟩ := runs_pure.1 h
    exact .refl _
  | cons entry rest ih =>
    obtain ⟨f, gs, hd, tl, s, hf, hr, -, -⟩ := resolveFields_runs h
    refine .trans ?_ (ih hr)
    obtain ⟨-, start, g, -, hg, -⟩ := resolveField_runs hf
    obtain ⟨ref, -, hr, -⟩ | ⟨-, rfl, -⟩ | ⟨target, out, -, -, hm, -⟩ | ⟨-, rfl, -⟩ :=
      resolveFieldType_runs hg
    · exact silent_resolveReference hself hr
    · exact .refl _
    · exact silent_resolveMember hself hm
    · exact .refl _

theorem silent_resolveCombinator (hself : Silent self) {key label : String}
    {branches : Option (List (Link Model))}
    (h : Runs (resolveCombinator self site required node m key label) p (branches, needs) q) :
    p.Quiet q := by
  obtain ⟨rfl, -⟩ | ⟨items, links, -, hb, -⟩ := resolveCombinator_runs h
  · exact .refl _
  clear h
  generalize 0 = i at hb
  induction items generalizing i links needs p with
  | nil =>
    obtain ⟨-, rfl⟩ := runs_pure.1 hb
    exact .refl _
  | cons branch rest ih =>
    obtain ⟨out, more, tl, s, hm, hr, -, -⟩ := resolveBranches_runs hb
    exact (silent_resolveMember hself hm).trans (ih _ _ hr)

theorem silent_resolve (hself : Silent self)
    (h : Runs (resolve document self site node) p out q) : p.Quiet q := by
  obtain ⟨ref, -, -, rfl, -⟩ | ⟨start, m, needs, -, hp, -⟩ := resolve_runs h
  · exact .refl _
  obtain ⟨-, ha⟩ | ⟨-, mid, hd, s, hm, hc⟩ := resolveParts_runs hp
  · obtain ⟨items, out, s, -, hs, ⟨_, -, -, rfl, -⟩ | ⟨-, rfl, -⟩⟩ := resolveArray_runs ha
    · exact hself hs
    · exact (hself hs).trans (.claimed _ _)
  have hm : p.Quiet s := by
    obtain ⟨out, hs, -⟩ | ⟨rfl, -⟩ := resolveMapValues_runs hm
    · exact silent_resolveMember hself hs
    · exact .refl _
  obtain ⟨-, tl, hcomp, -⟩ | ⟨-, rfl, -⟩ := hc
  · obtain ⟨names, fs, allOf, anyOf, oneOf, n₀, n₁, n₂, n₃, p₁, p₂, p₃, -, h₀, h₁, h₂, h₃, -, -⟩ :=
      resolveComposite_runs hcomp
    have h₀ : s.Quiet p₁ := by
      obtain ⟨rfl, -⟩ | ⟨entries, -, hf⟩ := resolveProperties_runs h₀
      · exact .refl _
      · exact silent_resolveFields hself hf
    exact (((hm.trans h₀).trans (silent_resolveCombinator hself h₁)).trans
      (silent_resolveCombinator hself h₂)).trans (silent_resolveCombinator hself h₃)
  · exact hm

end Schema

theorem silent_resolveParameter (hself : Silent self)
    (h : Runs (Parameter.resolve self scope name node) p m q) : p.Quiet q := by
  obtain ⟨start, schema, mid, -, -, -, -, -, -, -, -, -, hv, -⟩ := Parameter.resolve_runs h
  obtain ⟨-, rfl, -⟩ | ⟨v, out, s, -, hs, ⟨_, -, rfl, -⟩ | ⟨_, _, _, -, -, ha, rfl, -⟩ |
    ⟨_, -, -, rfl, -⟩⟩ := Parameter.resolveValues_runs hv
  · exact .refl _
  · exact hself hs
  · exact (hself hs).trans (.content ha)
  · exact hself hs

theorem silent_resolveHeaders (hself : Silent self) {v : Json} {headers : Dict String Ref}
    (h : Runs (Header.resolveAll document self scope v) p headers q) : p.Quiet q := by
  obtain ⟨rfl, -⟩ | ⟨entries, -, he⟩ := Header.resolveAll_runs h
  · exact .refl _
  clear h
  induction entries generalizing p headers with
  | nil =>
    obtain ⟨-, rfl⟩ := runs_pure.1 he
    exact .refl _
  | cons entry rest ih =>
    obtain ⟨ref, more, s, hr, hm, -⟩ := Header.resolveEach_runs he
    refine .trans ?_ (ih hm)
    obtain ⟨-, hr⟩ | ⟨_, _, _, _, _, -, -, hp, ha, -, rfl⟩ := Header.resolve_runs hr
    · exact silent_resolveReference hself hr
    · exact (silent_resolveParameter hself hp).trans (.content ha)

theorem silent_resolveWithin (document : Json) (depth : Nat) :
    Silent (resolveWithin document depth) := by
  induction depth with
  | zero => exact fun _ _ _ _ _ h => (runs_fail.1 h).elim
  | succ depth ih =>
    intro site v p out q h
    obtain ⟨-, ⟨-, ref, hr, -⟩ | ⟨-, m, hm, -⟩ | ⟨-, m, hm, -⟩ | ⟨-, kind, m, -, hm, -⟩ | ⟨-, hm⟩⟩ :=
      resolveForm_runs h
    · exact silent_resolveReference ih hr
    · rw [(resolveSecurityScheme_runs hm).1]
      exact .refl _
    · exact silent_resolveParameter ih hm
    · obtain ⟨headers, hh, -⟩ := Header.resolveHolder_runs hm
      exact silent_resolveHeaders ih hh
    · exact Schema.silent_resolve ih hm

theorem silent_resolveNode (document : Json) : Silent (resolveNode document) :=
  fun _ _ _ _ _ h => silent_resolveWithin document _ h

theorem silent_resolvePayload (hself : Silent self) {schema : Json} {payload : Payload}
    (h : Runs (Payload.resolve self scope name schema) p payload q) : p.Quiet q := by
  obtain ⟨rfl, -⟩ | ⟨v, scope', array, -, hv⟩ := Payload.resolve_runs h
  · exact .refl _
  · obtain ⟨out, s, found, t, hs, ha, -, rfl⟩ := Payload.resolveRegistered_runs hv
    exact (hself hs).trans (.content ha)

/-- A parameter that leads out of the document leaves a warning, and any other nothing. -/
theorem tells_resolveInto (hself : Silent self) {groups groups' : Parameter.Groups}
    (h : Runs (Parameter.resolveInto self scope groups node) p groups' q) :
    ∃ texts, p.Tells texts q := by
  obtain ⟨-, out, s, found, t, hs, ha, ⟨-, -, rfl⟩ | ⟨m, place, -, -, -, -, rfl⟩⟩ :=
    Parameter.resolveInto_cases h
  · have entered : p.Quiet { s with registry := t } := (hself hs).trans (.content ha)
    exact ⟨[_], entered.warn _⟩
  · exact ⟨[], (hself hs).trans (.content ha)⟩

/-- Only the parameters that lead out of the document leave a notice. -/
theorem tells_resolveParameters (hself : Silent self) {params : List Json}
    {groups : Parameter.Groups} (h : Runs (Parameter.resolveAll self scope params) p groups q) :
    ∃ texts, p.Tells texts q := by
  unfold Parameter.resolveAll at h
  generalize 0 = i, (⟨[], [], []⟩ : Parameter.Groups) = start at h
  induction params generalizing i start p with
  | nil =>
    obtain ⟨-, rfl⟩ := runs_pure.1 h
    exact ⟨[], Progress.Quiet.refl _⟩
  | cons param rest ih =>
    obtain ⟨mid, s, hm, hr⟩ := Parameter.resolveFrom_runs h
    obtain ⟨more, rest⟩ := ih _ _ hr
    obtain ⟨texts, first⟩ := tells_resolveInto hself hm
    exact ⟨texts ++ more, first.trans rest⟩

theorem silent_resolveResponses (hself : Silent self) {o : Occasion} {v : Json}
    {responses : List Response}
    (h : Runs (Response.resolveAll document self scope o v) p responses q) :
    p.Quiet q := by
  have media {scope : Scope} {status : String} {headers : Dict String Ref} {v : Json}
      {entries : List (String × Json)} {p q : Progress} {responses : List Response}
      (h : Runs (Response.resolveMedia self scope o status headers v entries) p responses q) :
      p.Quiet q := by
    induction entries generalizing p responses with
    | nil =>
      obtain ⟨-, rfl⟩ := runs_pure.1 h
      exact .refl _
    | cons entry rest ih =>
      obtain ⟨-, payload, s, response, more, hp, hm, -⟩ := Response.resolveMedia_runs h
      exact (silent_resolvePayload hself hp).trans (ih hm)
  obtain ⟨entries, -, he⟩ := Response.resolveAll_runs h
  clear h
  induction entries generalizing p responses with
  | nil =>
    obtain ⟨-, rfl⟩ := runs_pure.1 he
    exact .refl _
  | cons entry rest ih =>
    obtain ⟨here, more, s, hh, hm, -⟩ := Response.resolveEach_runs he
    refine .trans ?_ (ih hm)
    obtain ⟨v, headers, t, -, hd, ⟨entries, -, -, hm⟩ | ⟨-, rfl, -⟩⟩ :=
      Response.resolveStatus_runs hh
    · exact (silent_resolveHeaders hself hd).trans (media hm)
    · exact silent_resolveHeaders hself hd

theorem silent_resolveBodies (hself : Silent self) {o : Occasion} {bodies : List RequestBody}
    (h : Runs (RequestBody.resolveAll document self scope o node) p bodies q) :
    p.Quiet q := by
  have media {scope : Scope} {v : Json} {entries : List (String × Json)} {shared : Option Payload}
      {p q : Progress} {bodies : List RequestBody}
      (h : Runs (RequestBody.resolveMedia self scope o v shared entries) p bodies q) :
      p.Quiet q := by
    induction entries generalizing p shared bodies with
    | nil =>
      obtain ⟨-, rfl⟩ := runs_pure.1 h
      exact .refl _
    | cons entry rest ih =>
      obtain ⟨-, payload, s, body, more, ⟨-, rfl⟩ | ⟨-, hp⟩, hm, -⟩ := RequestBody.resolveMedia_runs h
      · exact ih hm
      · exact (silent_resolvePayload hself hp).trans (ih hm)
  obtain ⟨v, -, ⟨-, rfl, -⟩ | ⟨entries, -, -, hm⟩⟩ := RequestBody.resolveAll_runs h
  · exact .refl _
  · exact media hm

theorem silent_resolveMethod (hself : Silent self) {verb : Verb} {path : String}
    {item operation : Json} {m : Method}
    (h : Runs (Method.resolve document self scope verb path item operation) p m q) :
    q.trail = (p.emitted, m.name :: p.methodNames) := by
  have gather {p q : Progress} {refs : List Ref} {name : String} {ref? : Option Ref}
      (h : Runs (Parameter.gather scope refs name) p ref? q) : q.trail = p.trail := by
    obtain ⟨rfl, -⟩ | ⟨_, _, _, _, -, -, -, -, -, -, -, -, rfl⟩ := Parameter.gather_runs h <;> rfl
  obtain ⟨wanted, params, o, p₁, p₂, p₃, p₄, p₅, p₆, -, -, -, -, -, hn, hm, -, hg, h₁, h₂, h₃, h₄, h₅,
    -, -⟩ := Method.resolve_runs h
  have bodies : p₆.Quiet q := by
    obtain ⟨-, rfl, -⟩ | ⟨-, hb⟩ := h₅
    · exact .refl _
    · exact silent_resolveBodies hself hb
  obtain ⟨texts, told⟩ := tells_resolveParameters hself hg
  rw [bodies.trail, (silent_resolveResponses hself h₄).trail, gather h₃, gather h₂, gather h₁,
    told.trail, Progress.trail, hm, Progress.emitted, hn, Progress.emitted]

namespace Component

theorem silent_resolve {e : Entry} {link : Link Model} (hself : Silent self)
    (h : Runs (resolve self scope e) p link q) : p.Quiet q := by
  obtain ⟨_, _, _, -, -, hm, -⟩ | ⟨_, _, ho, -⟩ := resolve_runs h
  · exact silent_resolveParameter hself hm
  · exact hself ho

/-- Before components are resolved, only their own keys get names. -/
theorem quiet_reserved (es : List Entry) (p : Progress) :
    p.Quiet { p with registry := es.foldl reserved p.registry } := by
  induction es generalizing p with
  | nil => exact .refl p
  | cons e es ih =>
    have first : p.Quiet { p with registry := reserved p.registry e } := .reserve (head_key e) rfl
    exact first.trans (ih _)

theorem silent_resolveEach {es : List Entry} {resolved : List (Entry × Link Model)} (hself : Silent self)
    (h : Runs (resolveEach self scope es) p resolved q) : p.Quiet q := by
  induction es generalizing p resolved with
  | nil =>
    obtain ⟨-, rfl⟩ := runs_pure.1 h
    exact .refl _
  | cons e es ih =>
    obtain ⟨link, more, s, hl, hm, -⟩ := resolveEach_runs h
    exact (silent_resolve hself hl).trans (ih hm)

/-- The models of components are delivered with all others, and not when they are found. -/
theorem silent_collect {u : Unit} (hself : Silent self)
    (h : Runs (collect document self scope) p u q) : p.Quiet q := by
  obtain ⟨resolved, s, t, order, he, hf, ho, -⟩ := collect_runs h
  have registered {xs : List (Entry × Link Model)} {p q : Progress} {u : Unit}
      (h : Runs (xs.forM register) p u q) : p.Quiet q := by
    induction xs generalizing p with
    | nil =>
      obtain ⟨-, rfl⟩ := runs_pure.1 h
      exact .refl _
    | cons x xs ih =>
      change Runs (register x >>= fun _ => xs.forM register) p u q at h
      simp only [runs_bind] at h
      obtain ⟨_, s, hr, hm⟩ := h
      refine .trans ?_ (ih hm)
      obtain ⟨e, link⟩ := x
      obtain ⟨-, rfl⟩ | ⟨_, _, _, -, ha, rfl⟩ := register_runs hr
      · exact .refl _
      · exact .declare (head_key e) ha
  have aliased : t.Quiet q := by
    clear hf he h
    induction ho with
    | done => exact .refl _
    | next first _ ih =>
      refine .trans ?_ ih
      obtain ⟨-, rfl⟩ | ⟨_, _, _, _, -, -, ha, rfl⟩ := registerAlias_runs first
      · exact .refl _
      · exact .declare (head_key _) ha
  exact (((quiet_reserved _ p).trans (silent_resolveEach hself he)).trans (registered hf)).trans aliased

end Component

/-- A model as it is delivered. -/
def Model.notice (m : Model) : List Kind × Entity := ([m.kind, .model], .model m)

/-- A path with its operations as they are delivered: the operations come first. -/
def Path.notices (x : Path × List Method) : List (List Kind × Entity) :=
  x.2.map (fun m => ([.method], .method m)) ++ [([.path], .path x.1)]

namespace Walk

theorem emitted_operations {item : Json} {verbs : List Verb} {methods : List Method}
    (hself : Silent self) (h : Runs (operations document self scope name item verbs) p methods q) :
    q.emitted = p.emitted ++ methods.map fun m => ([.method], .method m) := by
  induction verbs generalizing p methods with
  | nil =>
    obtain ⟨rfl, rfl⟩ := runs_pure.1 h
    simp
  | cons verb rest ih =>
    obtain ⟨-, hr⟩ | ⟨m, more, s, -, hm, hr, rfl⟩ := operations_runs h
    · exact ih hr
    · rw [ih hr]
      have hs : s.emitted = p.emitted := congrArg Prod.fst (silent_resolveMethod hself hm)
      simpa [Progress.emitted, Notice.entity?] using hs

theorem emitted_paths {walked : List (Path × List Method)} (hself : Silent self)
    (h : Runs (paths document self scope) p walked q) :
    q.emitted = p.emitted ++ walked.flatMap Path.notices := by
  replace h := paths_runs h
  generalize listed document = entries at h
  induction entries generalizing p walked with
  | nil =>
    obtain ⟨rfl, rfl⟩ := runs_pure.1 h
    simp
  | cons entry rest ih =>
    rw [List.mapM_cons] at h
    simp only [runs_bind, runs_pure] at h
    obtain ⟨⟨p', methods⟩, s, hp, more, _, hm, rfl, rfl⟩ := h
    obtain ⟨item, t, -, ho, -, -, -, rfl⟩ := path_runs hp
    have ht := emitted_operations hself ho
    rw [ih hm]
    simp only [Progress.emitted, List.filterMap_append, List.filterMap_cons, Notice.entity?,
      List.filterMap_nil] at ht ⊢
    simp [ht, Path.notices]

/-- The models of a walk are left without a warning. -/
theorem warned_models (h : Runs models p () q) : q.warned = p.warned := by
  have none : ((Dict.values p.registry.models).map fun m => Notice.entity [m.kind, .model] (.model m)).filterMap
      Notice.warning? = [] := by
    rw [List.filterMap_map]
    exact List.filterMap_eq_nil_iff.2 fun _ _ => rfl
  rw [models_runs h, Progress.warned, List.filterMap_append, none, List.append_nil]
  rfl

end Walk

/-- The entities of a walk are its paths, each after its operations, and then all models that were
registered. -/
theorem emitted_walk {s t : Progress} {walked : List (Path × List Method)}
    (hc : Runs (Component.collect document (resolveNode document) (Scope.root.phase .named)) p () s)
    (hp : Runs (Walk.paths document (resolveNode document) (Scope.root.phase .structural)) s walked t)
    (hm : Runs Walk.models t () q) :
    q.emitted = p.emitted ++ walked.flatMap Path.notices ++
      (Dict.values t.registry.models).map Model.notice := by
  obtain rfl := Walk.models_runs hm
  have hs : s.emitted = p.emitted :=
    congrArg Prod.fst (Component.silent_collect (silent_resolveNode document) hc).trail
  have ht := Walk.emitted_paths (silent_resolveNode document) hp
  rw [hs] at ht
  rw [← ht]
  simp only [Progress.emitted, List.filterMap_append, List.filterMap_map]
  congr 1
  exact congrFun (List.filterMap_eq_map (f := Model.notice)) _

end ApiGraph
