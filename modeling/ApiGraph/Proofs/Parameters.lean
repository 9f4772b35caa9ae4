import ApiGraph.Proofs.Aggregates

/-! The parameters of an operation. Those of the path that the operation does not declare itself come
first, and then its own; each leaves a handle in the group of its place, or a warning if it leads out of
the document. The warnings of all operations are those of the document. -/

namespace ApiGraph

open Resolving Registry

variable {document node v w : Json} {scope : Scope} {p q s : Progress} {r t final : Registry}
  {link : Link Model} {found : Resolved} {refs : List String} {location text : String}

/-- Where the tables agree with the document, a node finds a model that was made from what its chase
finds. -/
theorem Answers.finds (answers : Answers document r v link) (before : r.Faithful document)
    (after : t.Faithful document) (ha : r.assert v link none .structural location = .ok (found, t))
    (chase : Chase document v refs (.found w)) (headerless : Component.Headerless document refs) :
    ∃ name m, found = ⟨.named name, some m⟩ ∧ t.models.lookup name = some m ∧
      (m.source.isObject = true → Json.Alike m.source w) := by
  have itself (plain : v.has "$ref" = false) : w = v := by
    cases chase with
    | found _ _ => rfl
    | next spells _ _ => simp [Json.has, spells] at plain
  cases answers with
  | @made m source plain =>
    have registers := assert_model plain ha
    obtain ⟨name, k, hf, known⟩ := register_found (r := r) .structural (keyFor .structural v m none) m
    obtain ⟨content, hc, canonical⟩ := register_indexed registers
    rw [registers] at hf known
    obtain rfl : found = ⟨.named name, some k⟩ := hf
    obtain rfl : name = content := congrArg Ref.name hc
    refine ⟨name, k, rfl, known, fun _ => ?_⟩
    rw [itself plain]
    exact Json.canonical_eq_iff.1 (after.content canonical known)
  | @equal name object plain known model =>
    obtain ⟨rfl, required⟩ := assert_ref ha
    obtain ⟨other, m, resolved, rfl, hm⟩ := requireRef_model required rfl
    obtain rfl | ⟨absent, -⟩ := resolve_name resolved
    · refine ⟨_, m, rfl, hm, fun _ => ?_⟩
      rw [itself plain]
      exact Json.canonical_eq_iff.1 (after.content known hm)
    · cases absent.symm.trans model
  | @refers text ref spells leads =>
    obtain ⟨rfl, required⟩ := assert_ref ha
    cases leads with
    | out _ nothing => cases (((Chase.of_link spells).1 chase).unique nothing).2
    | inside inner here named =>
      obtain ⟨name, m, resolved, rfl, hm⟩ := requireRef_model required inner
      refine ⟨name, m, rfl, hm, fun object => ?_⟩
      obtain rfl | ⟨-, known⟩ := resolve_name resolved
      · obtain ⟨_, _, other, admitted⟩ := before.source here named hm object
        obtain ⟨rfl, rfl⟩ := ((Chase.of_link spells).1 chase).unique other
        exact admitted headerless
      · -- a name is a key of its own only for what was made from no node
        obtain ⟨k, hk, sourceless⟩ := before.outside (before.plain named) known
        obtain rfl := Option.some.inj (hm.symm.trans hk)
        cases sourceless.symm.trans object

namespace Parameter

/-- What a parameter leaves: a warning that it was skipped, or the name of its model for a place. -/
inductive Contribution where
  | skipped (text : String)
  | taken (place : ParameterPlace) (name : String)

/-- The warning of a contribution, if it is one. -/
def Contribution.warning? : Contribution → Option String
  | skipped text => some text
  | taken _ _ => none

/-- The handle of a contribution for a place. -/
def Contribution.handle? (place : ParameterPlace) : Contribution → Option Ref
  | skipped _ => none
  | taken other name => if other = place then some (.named name) else none

/-- The warnings among some contributions. -/
def warnings (cs : List Contribution) : List String := cs.filterMap Contribution.warning?

/-- The handles for a place among some contributions. -/
def handles (place : ParameterPlace) (cs : List Contribution) : List Ref :=
  cs.filterMap (Contribution.handle? place)

/-- The groups with some more contributions at their ends. -/
def Groups.joined (g : Groups) (cs : List Contribution) : Groups where
  path := g.path ++ handles .path cs
  query := g.query ++ handles .query cs
  header := g.header ++ handles .header cs

theorem Groups.joined_nil (g : Groups) : g.joined [] = g := by
  simp [joined, handles]

theorem Groups.joined_cons (g : Groups) (c : Contribution) (cs : List Contribution) :
    (g.joined [c]).joined cs = g.joined (c :: cs) := by
  simp only [joined, handles, List.append_assoc, ← List.filterMap_append, List.singleton_append]

theorem Groups.joined_skipped (g : Groups) (text : String) : g.joined [.skipped text] = g := by
  simp [joined, handles, List.filterMap_cons, Contribution.handle?]

theorem Groups.joined_taken (g : Groups) (place : ParameterPlace) (name : String) :
    g.joined [.taken place name] = g.add place (.named name) := by
  cases place <;> simp [joined, handles, Contribution.handle?, add]

/-- A parameter leads out of the document, or to a node of it. -/
inductive Located (document node : Json) : Prop
  | outside {text : String} (spells : node.get? "$ref" = some (.str text))
    (far : Pointer.isLocal text = false) : Located document node
  | inside {refs : List String} {v : Json} (chase : Chase document node refs (.found v))
    (headerless : Component.Headerless document refs) : Located document node

/-- A parameter that leads out of the document is skipped with a warning. Any other has a model that was
made from what its chase finds, and the place that this tells. -/
inductive Contributes (document : Json) (r : Registry) (location : String) (node : Json) :
    Contribution → Prop
  | remote {text : String} (spells : node.get? "$ref" = some (.str text))
    (far : Pointer.isLocal text = false) :
    Contributes document r location node
      (.skipped s!"Skipping remote parameter '{text}' at {location}")
  | found {refs : List String} {v : Json} {place : ParameterPlace} {name : String} {m : Model}
    (chase : Chase document node refs (.found v))
    (placed : (v.get "in").text?.bind ParameterPlace.ofWord? = some place)
    (registered : r.models.lookup name = some m) (same : Json.Alike m.source v) :
    Contributes document r location node (.taken place name)

/-- The names of all models that were taken are registered. -/
def Known (r : Registry) (cs : List Contribution) : Prop :=
  ∀ place name, .taken place name ∈ cs → r.contains name = true

/-- A parameter that leads out of the document finds no model. -/
theorem found_of_outside {out : Outcome} {site : Site} (hint : site.hint = some .parameter)
    (spells : node.get? "$ref" = some (.str text)) (far : Pointer.isLocal text = false)
    (hs : Runs (resolveNode document site node) p out s)
    (ha : s.registry.assert node out.result none .structural location = .ok (found, t)) :
    found = ⟨.remote text, none⟩ := by
  obtain ⟨_, hf⟩ := resolveNode_runs hs
  have form : Schema.formOf node site.hint = .reference := by simp [Schema.formOf, Json.has, spells]
  obtain ⟨-, ⟨-, ref, hr, rfl⟩ | ⟨other, -⟩ | ⟨other, -⟩ | ⟨holds, -⟩ | ⟨other, -⟩⟩ := resolveForm_runs hf
  · obtain ⟨text', spells', leads⟩ := resolveReference_runs hr
    obtain rfl := Json.str.inj (Option.some.inj (spells.symm.trans spells'))
    obtain ⟨-, rfl, rfl⟩ | ⟨here, -⟩ | ⟨here, -⟩ := leads
    · exact (Except.ok.inj (assert_ref ha).2).symm
    · cases here.symm.trans far
    · cases here.symm.trans far
  · cases form.symm.trans other
  · cases form.symm.trans other
  · simp [hint] at holds
  · cases form.symm.trans other

/-- A parameter that leads to a node of the document finds a model that was made from this node. -/
theorem found_of_inside {out : Outcome} {site : Site} (hint : site.hint = some .parameter)
    (mid : Midway document final p) (after : Midway document final q) (hq : q.registry = t)
    (unique : Component.Unrepeated document)
    (names : ∀ name, final.contains name = true → Pointer.isLocal name = false)
    (chase : Chase document node refs (.found v)) (headerless : Component.Headerless document refs)
    (hs : Runs (resolveNode document site node) p out s)
    (ha : s.registry.assert node out.result none .structural location = .ok (found, t)) :
    ∃ name m, found = ⟨.named name, some m⟩ ∧ t.models.lookup name = some m ∧
      (m.source.isObject = true → Json.Alike m.source v) := by
  subst hq
  obtain ⟨-, before⟩ := mid.faithful unique names
  obtain ⟨clean, faithful⟩ := after.faithful unique names
  obtain ⟨⟨extended, -⟩, resolved⟩ : (fidelity document).node site node p.registry out s.registry :=
    Traversal.sound_resolveNode (fidelity document) ⟨by simp [hint], by simp [hint]⟩ hs
  obtain ⟨trusted, answers⟩ := resolved mid.ready.sound fun _ => before
  have here : s.registry.Clean document := clean.of_extends (extended mid.ready.sound).1 (extends_assert ha)
  exact (answers here).finds (trusted here) faithful ha chase headerless

/-- A parameter makes one contribution. -/
theorem resolveInto_contributes {groups groups' : Groups} (mid : Midway document final p)
    (after : Midway document final q)
    (h : Runs (resolveInto (resolveNode document) scope groups node) p groups' q) :
    ∃ c, p.Tells (warnings [c]) q ∧ groups' = groups.joined [c] ∧ Known q.registry [c] ∧
      (Component.Unrepeated document →
        (∀ name, final.contains name = true → Pointer.isLocal name = false) →
        Located document node → Contributes document final scope.location node c) := by
  obtain ⟨-, out, s, found, t, hs, ha, hc⟩ := resolveInto_cases h
  have entered : p.Quiet { s with registry := t } := (silent_resolveNode document hs).trans (.content ha)
  have leads : q.registry = t := by
    obtain ⟨-, -, rfl⟩ | ⟨_, _, -, -, -, -, rfl⟩ := hc <;> rfl
  obtain ⟨none, rfl, rfl⟩ | ⟨m, place, some, object, placed, rfl, rfl⟩ := hc
  · refine ⟨.skipped _, entered.warn _, (Groups.joined_skipped _ _).symm, by simp [Known], ?_⟩
    rintro unique names (⟨spells, far⟩ | ⟨chase, headerless⟩)
    · obtain rfl := found_of_outside rfl spells far hs ha
      exact .remote spells far
    · obtain ⟨_, _, rfl, -⟩ := found_of_inside rfl mid after leads unique names chase headerless hs ha
      cases none
  · obtain ⟨-, none⟩ | ⟨name, k, rfl, hk⟩ := assert_found ha
    · cases none.symm.trans some
    obtain rfl := Option.some.inj some
    refine ⟨.taken place name, entered, (Groups.joined_taken _ _ _).symm, ?_, ?_⟩
    · rintro _ _ hm
      cases List.mem_singleton.1 hm
      exact contains_iff.2 ⟨k, hk⟩
    rintro unique names (⟨spells, far⟩ | ⟨chase, headerless⟩)
    · cases found_of_outside rfl spells far hs ha
    · obtain ⟨_, _, same, -, alike⟩ :=
        found_of_inside rfl mid after leads unique names chase headerless hs ha
      cases same
      refine .found chase ?_ (after.grows.lookup hk) (alike object)
      rw [← ((alike object).get "in").text?_eq]
      exact placed

/-- Parameters make their contributions one after the other. -/
theorem resolveFrom_contributes {params : List Json} {i : Nat} {groups groups' : Groups}
    (mid : Midway document final p) (after : Midway document final q)
    (h : Runs (resolveFrom (resolveNode document) scope i params groups) p groups' q) :
    ∃ cs, p.Tells (warnings cs) q ∧ groups' = groups.joined cs ∧ Known q.registry cs ∧
      (Component.Unrepeated document →
        (∀ name, final.contains name = true → Pointer.isLocal name = false) →
        (∀ node ∈ params, Located document node) →
        List.Forall₂ (fun x c =>
          Contributes document final (scope.down ["parameters", toString x.2]).location x.1 c)
          (params.zipIdx i) cs) := by
  induction params generalizing i p groups with
  | nil =>
    obtain ⟨rfl, rfl⟩ := runs_pure.1 h
    exact ⟨[], Progress.Quiet.refl _, (Groups.joined_nil _).symm, by simp [Known], fun _ _ _ => .nil⟩
  | cons node rest ih =>
    obtain ⟨between, s, hm, hr⟩ := resolveFrom_runs h
    have first : p.Leads document s := fun T => (Traversal.resolveInto (T := T) hm).imp fun _ => And.left
    have further : s.Leads document q := fun T => (Traversal.resolveFrom (T := T) hr).imp fun _ => And.left
    have there : Midway document final s :=
      mid.leads first fun R => (further.grown R).trans (after.after R)
    obtain ⟨c, told, rfl, known, contributes⟩ := resolveInto_contributes mid there hm
    obtain ⟨cs, more, rfl, others, rest⟩ := ih there hr
    have grown : Grows (fun _ => False) s.registry q.registry :=
      (further.grown _ there.ready.sound).2.of_new
    refine ⟨c :: cs, ?_, Groups.joined_cons _ _ _, fun place name hm => ?_, fun unique names located => ?_⟩
    · rw [warnings, ← List.singleton_append, List.filterMap_append]
      exact told.trans more
    · obtain rfl | hm := List.mem_cons.1 hm
      · exact grown.contains (known place name List.mem_cons_self)
      · exact others place name hm
    · obtain ⟨here, located⟩ := List.forall_mem_cons.1 located
      rw [List.zipIdx_cons]
      exact .cons (contributes unique names here) (rest unique names located)

theorem Known.handle {cs : List Contribution} {place : ParameterPlace} {ref : Ref} (h : Known r cs)
    (mem : ref ∈ handles place cs) : ∃ name, ref = .named name ∧ r.contains name = true := by
  obtain ⟨c, hc, same⟩ := List.mem_filterMap.1 mem
  cases c with
  | skipped text => cases same
  | taken other name =>
    simp only [Contribution.handle?, Option.ite_none_right_eq_some, Option.some.injEq] at same
    exact ⟨name, same.2.symm, h other name hc⟩

/-- A chase from a parameter passes no declared header, and no declared component before it comes to
nothing. -/
def Direct (document node : Json) : Prop :=
  ∀ refs ending, Chase document node refs ending → Component.Headerless document refs ∧
    ∀ lost, ending = .missing lost → ¬ Component.Passed document refs

theorem Direct.of_chase {ending : Ending} (chase : Chase document node refs ending)
    (headerless : Component.Headerless document refs)
    (passes : ∀ lost, ending = .missing lost → ¬ Component.Passed document refs) :
    Direct document node := by
  intro refs' ending' other
  obtain ⟨rfl, rfl⟩ := chase.unique other
  exact ⟨headerless, passes⟩

/-- A parameter is told apart by its name and place, once its references are followed, or by a
reference that leads out of the document. -/
inductive Identified (document node : Json) : String × String → Prop
  | outside {text : String} (spells : node.get? "$ref" = some (.str text))
    (far : Pointer.isLocal text = false) : Identified document node (text, "")
  | inside {refs : List String} {v w : Json} (chase : Chase document node refs (.found v))
    (same : Json.Alike w v) (plain : refs = [] → w = v) :
    Identified document node (w.wordOf "name", w.wordOf "in")

/-- A parameter whose identity was told leads somewhere, and is told apart as it should be. -/
theorem identity_identified {id : String × String} (mid : Midway document final p)
    (unique : Component.Unrepeated document)
    (names : ∀ name, final.contains name = true → Pointer.isLocal name = false)
    (direct : Direct document node) (h : Runs (identity document scope node) p id p) :
    Located document node ∧ Identified document node id := by
  obtain ⟨-, ⟨text, spells, far, rfl⟩ | ⟨w, follows, rfl⟩⟩ := identity_cases h
  · exact ⟨.outside spells far, .outside spells far⟩
  obtain ⟨clean, faithful⟩ := mid.faithful unique names
  obtain ⟨refs, ending, chase⟩ := chase_of_followChain faithful clean follows
  obtain ⟨headerless, passes⟩ := direct refs ending chase
  have agrees : ending.Agrees scope.location (.ok w) := follows ▸
    followChain_agrees faithful clean chase headerless passes (Nat.lt_succ_of_le chase.length_le)
  cases ending with
  | found v =>
    obtain ⟨_, itself, -, -, same⟩ := agrees
    obtain rfl := Except.ok.inj itself
    refine ⟨.inside chase headerless, .inside chase same ?_⟩
    rintro rfl
    exact Stands.of_plain ⟨_, follows⟩ chase
  | missing lost => cases agrees
  | foreign other => cases agrees

theorem identity_each {nodes : List Json} {ids : List (String × String)} (mid : Midway document final p)
    (unique : Component.Unrepeated document)
    (names : ∀ name, final.contains name = true → Pointer.isLocal name = false)
    (direct : ∀ node ∈ nodes, Direct document node)
    (h : List.Forall₂ (fun node id => Runs (identity document scope node) p id p) nodes ids) :
    (∀ node ∈ nodes, Located document node) ∧ List.Forall₂ (Identified document) nodes ids := by
  induction h with
  | nil => exact ⟨by simp, .nil⟩
  | cons first _ ih =>
    obtain ⟨here, others⟩ := List.forall_mem_cons.1 direct
    obtain ⟨located, identified⟩ := identity_identified mid unique names here first
    exact ⟨List.forall_mem_cons.2 ⟨located, (ih others).1⟩, .cons identified (ih others).2⟩

/-- The parameters that a path or an operation declares. -/
def declared (v : Json) : Option (List Json) := (Method.orElse (v.get "parameters") (.arr [])).parts?

/-- The parameters of a path that are told apart from all those of an operation come before these. -/
def merged (inherited own : List Json) (is os : List (String × String)) : List Json :=
  ((inherited.zip is).filter fun x => !os.contains x.2).map Prod.fst ++ own

/-- The contributions of the parameters that a path and an operation declare, one for each that counts. -/
def Contributed (document : Json) (r : Registry) (inherited own : List Json) (cs : List Contribution) :
    Prop :=
  ∃ (scope : Scope) (is os : List (String × String)),
    List.Forall₂ (Identified document) inherited is ∧ List.Forall₂ (Identified document) own os ∧
    List.Forall₂ (fun x c =>
      Contributes document r (scope.down ["parameters", toString x.2]).location x.1 c)
      (merged inherited own is os).zipIdx cs

end Parameter

open Parameter in
/-- The handles of the parameters of an operation are those of the contributions, place by place; there
is one contribution for each parameter of the path that the operation does not declare itself, and
then for each of its own. It is told for documents whose chases are direct. -/
structure Method.Parametrised (document : Json) (r : Registry) (item operation : Json) (m : Method)
    (cs : List Contribution) : Prop where
  path : m.pathParams = handles .path cs
  query : m.queryParams = handles .query cs
  header : m.headerParams = handles .header cs
  aggregated : m.Aggregated r
  contributed : ∃ inherited own, declared item = some inherited ∧ declared operation = some own ∧
    (Component.Unrepeated document →
      (∀ name, r.contains name = true → Pointer.isLocal name = false) →
      (∀ node ∈ inherited ++ own, Direct document node) → Contributed document r inherited own cs)

/-- The groups of an operation are gathered under keys that begin with its name, and leave no warning. -/
theorem Method.gather_keyed {name : String} {as bs cs : List Ref} {a? b? c? : Option Ref}
    {p₁ p₂ : Progress} (keyed : p.Keyed) (claimed : name ∈ p.methodNames)
    (h₁ : Runs (Parameter.gather scope as (name ++ "Path")) p a? p₁)
    (h₂ : Runs (Parameter.gather scope bs (name ++ "Query")) p₁ b? p₂)
    (h₃ : Runs (Parameter.gather scope cs (name ++ "Headers")) p₂ c? q) :
    q.Keyed ∧ q.warned = p.warned := by
  have first := Parameter.gathers (by decide) h₁
  have second := Parameter.gathers (by decide) h₂
  have third := Parameter.gathers (by decide) h₃
  obtain ⟨keyed, claimed⟩ := keyed.gathers claimed (by decide) first
  obtain ⟨keyed, claimed⟩ := keyed.gathers claimed (by decide) second
  obtain ⟨keyed, -⟩ := keyed.gathers claimed (by decide) third
  refine ⟨keyed, ?_⟩
  simp only [Progress.warned, third.notices, second.notices, first.notices]

open Parameter in
/-- An operation is resolved with one contribution of each of its parameters, and leaves the warnings
among them. -/
theorem Method.resolve_parametrised {verb : Verb} {path : String} {item operation : Json} {m : Method}
    (mid : Midway document final p) (after : Midway document final q) (keyed : p.Keyed)
    (h : Runs (resolve document (resolveNode document) scope verb path item operation) p m q) :
    ∃ cs, q.Keyed ∧ q.warned = p.warned ++ warnings cs ∧
      m.Parametrised document final item operation cs := by
  obtain ⟨wanted, params, o, p₁, p₂, p₃, p₄, p₅, p₆, ⟨given, rfl⟩, -, hv, hn, hr, hw, hm, merges, hg, h₁,
    h₂, h₃, h₄, h₅, -, -⟩ := resolve_runs h
  have bodies : p₆.Quiet q ∧ p₆.Leads document q := by
    obtain ⟨-, rfl, -⟩ | ⟨-, hb⟩ := h₅
    · exact ⟨.refl _, .refl _⟩
    · exact ⟨silent_resolveBodies (silent_resolveNode document) hb,
        fun T => ⟨_, Traversal.resolveBodies (Traversal.sound_resolveNode T) hv hb⟩⟩
  have responses : p₅.Quiet p₆ := silent_resolveResponses (silent_resolveNode document) h₄
  have gathered : p₂.Leads document p₅ := fun T => ⟨_, Traversal.gatherGroups hn h₁ h₂ h₃⟩
  have closing : p₅.Leads document q := Progress.Leads.trans
    (fun T => ⟨_, Traversal.resolveResponses (Traversal.sound_resolveNode T) hv h₄⟩) bodies.2
  have opened : p.Leads document p₁ := .of_eq hr
  have resolved : p₁.Leads document p₂ := fun T => (Traversal.resolveFrom (T := T) hg).imp fun _ => And.left
  have mid₅ : Midway document final p₅ :=
    mid.leads ((opened.trans resolved).trans gathered) fun R => (closing.grown R).trans (after.after R)
  have mid₂ : Midway document final p₂ :=
    mid.leads (opened.trans resolved) fun R => (gathered.grown R).trans (mid₅.after R)
  have mid₁ : Midway document final p₁ :=
    mid.leads opened fun R => (resolved.grown R).trans (mid₂.after R)
  obtain ⟨cs, told, groups, known, contributes⟩ := resolveFrom_contributes mid₁ mid₂ hg
  have hpath : m.pathParams = handles .path cs := congrArg Groups.path groups
  have hquery : m.queryParams = handles .query cs := congrArg Groups.query groups
  have hheader : m.headerParams = handles .header cs := congrArg Groups.header groups
  have claimed : m.name ∈ p₂.methodNames := by
    rw [told.methodNames, hm]
    exact List.mem_cons_self
  obtain ⟨keyed₅, silent⟩ := gather_keyed ((keyed.claims hr hm).tells told) claimed h₁ h₂ h₃
  have new : ∀ ending ∈ endings, p₂.registry.named.lookup (m.name ++ ending) = none := by
    intro ending he
    have far : Pointer.isLocal (m.name ++ ending) = false := hn ▸ isLocal_append_ending he
    rw [told.outside _ (Pointer.head_ne_of_isLocal far), hr]
    exact keyed.new (hn ▸ freeVariant_not_mem _ _) he far
  have aggregated : m.Aggregated p₅.registry := by
    refine gather_groups mid₂.ready.sound new (fun ref hr => ?_) h₁ h₂ h₃
    rw [hpath, hquery, hheader] at hr
    simp only [List.mem_append] at hr
    obtain (hr | hr) | hr := hr <;> exact known.handle hr
  refine ⟨cs, (keyed₅.tells responses).tells bodies.1, ?_, ?_⟩
  · calc q.warned = p₅.warned := by rw [bodies.1.warned, responses.warned, List.append_nil, List.append_nil]
      _ = p₂.warned := silent
      _ = p₁.warned ++ warnings cs := told.warned
      _ = p.warned ++ warnings cs := by rw [Progress.warned, hw, Progress.warned]
  obtain ⟨-, inherited, own, is, os, hi, ho, itold, otold, rfl⟩ := merge_cases merges
  refine ⟨hpath, hquery, hheader, aggregated.of_grows mid₅.grows, inherited, own, hi, ho,
    fun unique names direct => ?_⟩
  obtain ⟨ilocated, iidentified⟩ := identity_each mid₁ unique names
    (fun node hm => direct node (List.mem_append_left _ hm)) itold
  obtain ⟨olocated, oidentified⟩ := identity_each mid₁ unique names
    (fun node hm => direct node (List.mem_append_right _ hm)) otold
  refine ⟨scope, is, os, iidentified, oidentified, contributes unique names fun node hm => ?_⟩
  obtain hm | hm := List.mem_append.1 hm
  · obtain ⟨x, hx, rfl⟩ := List.mem_map.1 hm
    exact ilocated _ (List.of_mem_zip (List.mem_filter.1 hx).1).1
  · exact olocated node hm

/-- What holds of each step of a chain, and what it leaves, holds of the chain. -/
theorem Resolving.Chain.tells {α β : Type} {step : α → Progress → Progress → Prop}
    {holds : α → β → Prop} {texts : β → List String} {as : List α}
    (leads : ∀ a p q, step a p q → p.Leads document q)
    (one : ∀ a p q, Midway document final p → Midway document final q → p.Keyed → step a p q →
      ∃ b, q.Keyed ∧ q.warned = p.warned ++ texts b ∧ holds a b)
    (mid : Midway document final p) (after : Midway document final q) (keyed : p.Keyed)
    (h : Chain step as p q) :
    ∃ bs, q.Keyed ∧ q.warned = p.warned ++ bs.flatMap texts ∧ List.Forall₂ holds as bs := by
  induction h with
  | nil => exact ⟨[], keyed, (List.append_nil _).symm, .nil⟩
  | @cons a as p s q first rest ih =>
    have there : Midway document final s := mid.leads (leads _ _ _ first) fun R =>
      ((rest.leads leads).grown R).trans (after.after R)
    obtain ⟨b, keyed, told, here⟩ := one _ _ _ mid there keyed first
    obtain ⟨bs, keyed, more, others⟩ := ih there after keyed
    refine ⟨b :: bs, keyed, ?_, .cons here others⟩
    rw [more, told, List.flatMap_cons, List.append_assoc]

theorem Stop.Made.tells {name : String} {item : Json} {stop : Stop} (mid : Midway document final p)
    (after : Midway document final q) (keyed : p.Keyed) (h : stop.Made document name item p q) :
    ∃ cs, q.Keyed ∧ q.warned = p.warned ++ Parameter.warnings cs ∧
      stop.method.Parametrised document final item (item.get stop.method.verb.word) cs := by
  have leads := h.leads
  obtain ⟨⟨scope, s, run, rfl⟩, -⟩ := h
  have resolved : Midway document final s := mid.leads leads after.after
  obtain ⟨cs, keyed, told, parametrised⟩ := Method.resolve_parametrised mid resolved keyed run
  refine ⟨cs, keyed, ?_, parametrised⟩
  rw [← told]
  simp [Progress.warned, Notice.warning?]

/-- A path was visited: its item is what it stands for, and its operations have their parameters. -/
structure Visit.Parametrised (document : Json) (r : Registry) (v : Visit)
    (told : List (List Parameter.Contribution)) : Prop where
  item : Answered document r v.entry.2 v.item
  stops : List.Forall₂ (fun stop cs =>
    stop.method.Parametrised document r v.item (v.item.get stop.method.verb.word) cs) v.stops told

theorem Visit.Made.tells {v : Visit} (mid : Midway document final p) (after : Midway document final q)
    (keyed : p.Keyed) (h : v.Made document p q) :
    ∃ told, q.Keyed ∧ q.warned = p.warned ++ told.flatMap Parameter.warnings ∧
      v.Parametrised document final told := by
  have leads := h.leads
  obtain ⟨stands, -, -, -, -, -, s, chain, rfl⟩ := h
  have stopped : Midway document final s := mid.leads leads after.after
  obtain ⟨told, keyed, warned, stops⟩ := chain.tells (fun _ _ _ => Stop.Made.leads)
    (fun _ _ _ mid after keyed made => made.tells mid after keyed) mid stopped keyed
  refine ⟨told, keyed, ?_, stands.answered mid, stops⟩
  rw [← warned]
  simp [Progress.warned, Notice.warning?]

/-- The operations of an accepted document have the handles of their parameters place by place: those of
the path that an operation does not declare itself, then its own. A parameter that leads out of the
document leaves a warning instead, and there is no other. The handles of each place are gathered in
a model with a field for each. -/
theorem parameters_gathered {τ : Type} {g : Graph τ} {c : Graph.Change τ} (h : g.Accepted document c) :
    ∃ visits told, Graph.Account document c.graph visits ∧
      c.warnings = told.flatMap (fun stops => stops.flatMap Parameter.warnings) ∧
      List.Forall₂ (Visit.Parametrised document c.graph.registry) visits told := by
  obtain ⟨visits, s, t, account, collected, chain, same, warnings⟩ := h.visited
  have quiet : Progress.start.Quiet s := Component.silent_collect (silent_resolveNode document) collected
  have keyed : s.Keyed := by
    refine Progress.Keyed.tells (fun key name _ hn => ?_) quiet
    cases hn
  have after : Midway document c.graph.registry t :=
    ⟨⟨s, collected, chain.leads fun _ _ _ => Visit.Made.leads⟩, fun R => same ▸ .refl _⟩
  have mid : Midway document c.graph.registry s :=
    ⟨⟨s, collected, .refl _⟩, fun R => same ▸ (chain.leads fun _ _ _ => Visit.Made.leads).grown R⟩
  obtain ⟨told, -, warned, each⟩ := chain.tells (fun _ _ _ => Visit.Made.leads)
    (fun _ _ _ mid after keyed made => made.tells mid after keyed) mid after keyed
  refine ⟨visits, told, account, ?_, each⟩
  rw [warnings, warned, quiet.warned]
  rfl

/-- A parameter with a name and a place. -/
def paging.parameter (name place : String) : Json := .obj [("name", .str name), ("in", .str place)]

/-- The reference to the declared parameter of a name. -/
def paging.key (name : String) : String := Pointer.component "parameters" name

/-- The parameters of an operation: one that has the name and place of a declared one, a declared one in
a cookie, and one that leads out of the document. -/
def paging.own : List Json :=
  [.obj [("name", .str "p"), ("in", .str "query"), ("required", .bool true)], .link (key "S"),
    .link "https://e.com/q"]

/-- A path with declared parameters and an operation with others. -/
def paging.item : Json :=
  .obj [("parameters", .arr [.link (key "P"), .link (key "T")]),
    ("get", .obj [("parameters", .arr own)])]

/-- A document with the path, next to a schema of some name. -/
def paging (schema : String) : Json :=
  .obj [("openapi", .str "3.0.0"),
    ("components", .obj [("schemas", .obj [(schema, .obj [])]),
      ("parameters", .obj [("P", paging.parameter "p" "query"), ("S", paging.parameter "s" "cookie"),
        ("T", paging.parameter "trace" "header")])]),
    ("paths", .obj [("/a", paging.item)])]

/-- The handles of the parameters of the operations of a graph, by place. -/
def Graph.handled (g : Graph Unit) : List (List String × List String × List String) :=
  g.methods.map fun m =>
    (m.2.pathParams.map Ref.name, m.2.queryParams.map Ref.name, m.2.headerParams.map Ref.name)

/-- The parameter of the path that reads as one of the operation is left out; the others are gathered, and
the one that leads out leaves a warning. -/
theorem parameters_gathered_paging :
    let c : Graph.Change Unit := Graph.empty.parse (paging "Page") none
    Graph.Accepted Graph.empty (paging "Page") c ∧
      c.graph.handled = [([], ["QueryP"], ["T"])] ∧
      c.warnings = ["Skipping remote parameter 'https://e.com/q' at paths./a.get.parameters.3"] ∧
      ∃ visits told, Graph.Account (paging "Page") c.graph visits ∧
        List.Forall₂ (Visit.Parametrised (paging "Page") c.graph.registry) visits told ∧
        ∀ v ∈ visits, v.item = paging.item ∧ ∀ stop ∈ v.stops, stop.method.verb = .get →
          ∃ cs ∈ told.flatten, Parameter.Contributed (paging "Page") c.graph.registry
            [.link (paging.key "P"), .link (paging.key "T")] paging.own cs := by
  intro c
  have accepted : Graph.Accepted Graph.empty (paging "Page") c := .of_isOk (by decide +kernel)
  have unique : Component.Unrepeated (paging "Page") := by
    unfold Component.Unrepeated
    decide +kernel
  have names : ((Dict.keys c.graph.registry.models).all (!Pointer.isLocal ·)) = true := by decide +kernel
  have headerless (refs : List String) : Component.Headerless (paging "Page") refs := by
    have others : ∀ e ∈ Component.listed (paging "Page"), e.group.key ≠ "headers" := by decide +kernel
    exact fun e he _ => others e he
  obtain ⟨visits, told, account, warnings, each⟩ := parameters_gathered accepted
  refine ⟨accepted, by decide +kernel, by decide +kernel, visits, told, account, each, fun v hv => ?_⟩
  obtain ⟨i, hi, rfl⟩ := List.mem_iff_getElem.1 hv
  have entry : visits[i].entry ∈ Walk.listed (paging "Page") :=
    account.entries ▸ List.mem_map_of_mem hv
  replace entry : visits[i].entry = ("/a", paging.item) := List.mem_singleton.1 entry
  obtain ⟨item, stops⟩ := each.get hi (each.length_eq ▸ hi)
  simp only [List.get_eq_getElem, entry] at item stops
  replace item : visits[i].item = paging.item := item.plain _ (.found rfl rfl)
  refine ⟨item, fun stop hs verb => ?_⟩
  obtain ⟨k, hk, rfl⟩ := List.mem_iff_getElem.1 hs
  obtain ⟨-, -, -, -, _, _, inherited, own, contributed⟩ := stops.get hk (stops.length_eq ▸ hk)
  simp only [List.get_eq_getElem, item, verb] at inherited own
  cases inherited
  cases own
  have clean (name : String) (hn : c.graph.registry.contains name = true) :
      Pointer.isLocal name = false := by
    simpa using List.all_eq_true.1 names name ((Dict.mem_keys_iff_has _ _).2 hn)
  refine ⟨_, List.mem_flatten.2 ⟨_, List.getElem_mem _, List.getElem_mem _⟩,
    contributed unique clean fun node hm => ?_⟩
  have declared (name : String) (v : Json) (object : v.isObject = true) (plain : v.get? "$ref" = none)
      (leads : Pointer.resolve (paging "Page") (paging.key name) = some v) :
      Parameter.Direct (paging "Page") (.link (paging.key name)) :=
    .of_chase (.next (Json.get?_link _) leads (.found object plain)) (headerless _) nofun
  simp only [paging.own, List.cons_append, List.nil_append, List.mem_cons, List.not_mem_nil, or_false] at hm
  obtain rfl | rfl | rfl | rfl | rfl := hm
  · exact declared "P" _ rfl rfl rfl
  · exact declared "T" _ rfl rfl rfl
  · exact .of_chase (.found rfl rfl) (headerless _) nofun
  · exact declared "S" _ rfl rfl rfl
  · exact .of_chase (.missing (Json.get?_link _) rfl) (headerless _) fun _ _ passed => by
      obtain ⟨_, _, none⟩ := passed
      cases none

/-- A schema whose name is the reference to a parameter answers in its place, so that the parameter of the
path has another name and place than that of the operation and counts as well. -/
theorem parameter_hidden_by_schema :
    let c : Graph.Change Unit := Graph.empty.parse (paging (paging.key "P")) none
    Graph.Accepted Graph.empty (paging (paging.key "P")) c ∧
      Chase (paging (paging.key "P")) (.link (paging.key "P")) [paging.key "P"]
        (.found (paging.parameter "p" "query")) ∧
      c.graph.handled = [([], ["P", "QueryP"], ["T"])] := by
  intro c
  exact ⟨.of_isOk (by decide +kernel), .next (Json.get?_link _) rfl (.found rfl rfl), by decide +kernel⟩

end ApiGraph
