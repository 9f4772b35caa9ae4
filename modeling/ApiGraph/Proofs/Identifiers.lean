import ApiGraph.Proofs.Operations
import ApiGraph.Proofs.Resolve.Spelt

/-! The names that are made for operations, for gathered parameters and for what has no name of its own
are identifiers. It is not so for an operation whose identifier has no word character. -/

namespace ApiGraph

open Resolving Registry

variable {document : Json} {r s t : Registry} {p q : Progress} {scope : Scope} {m : Model}

/-- What is resolved under the name of an owner: its members, and nothing else. -/
def Traversal.Owned (document : Json) (owner : Option String) (r : Registry) (links : List (Link Model))
    (s : Registry) : Prop :=
  r.Extends (Component.Undeclared document) s ∧ (∀ n, owner = some n → Nested n links) ∧
    (r.Sound (Component.Undeclared document) → (∀ n, owner = some n → Sited document n) →
      r.Spelt document → s.Spelt document)

/-- What a node was resolved into enters by its content: it gets an identifier, or the name of the schema
of a declared parameter. -/
theorem Outcome.Spells.assert_content {R : String → Prop} {site : Site} {v : Json} {out : Outcome}
    {owner : Option String} {location : String} {found : Resolved} (spells : out.Spells site v)
    (spelt : s.Spelt document) (hs : s.Sound R) (titled : site.IsTitled v owner)
    (sited : ∀ n, owner = some n → Sited document n) (warrant : Warrant owner v out.result)
    (ha : s.assert v out.result none .structural location = .ok (found, t)) : t.Spelt document := by
  cases spells with
  | handle => exact (assert_ref ha).1 ▸ spelt
  | @model m needs plain given unnamed shaped nested =>
    refine spelt.assert hs ha nofun (fun _ => ?_) fun _ name named => ?_
    · cases owner with
      | none =>
        refine .inl (IsIdentifier.appends ?_ (appends_freeVariant _ _))
        obtain word | ⟨empty, other⟩ := titled
        · exact (given.eq word.1).symm ▸ word
        · obtain same | ⟨-, word⟩ := given
          · exact absurd (unnamed (same.trans empty)) other
          · exact word
      | some n =>
        have named : site.name = n ++ "Schema" := titled
        have nonempty : site.name ≠ "" := fun empty =>
          absurd (String.append_eq_empty_iff.1 (named.symm.trans empty)).2 (by decide)
        refine .schema (sited n rfl) rfl (warrant.formOf plain shaped) ?_
        rw [← named, ← given.eq nonempty]
        exact appends_freeVariant _ _
    · obtain ⟨other, -⟩ | ⟨-, rfl⟩ := named
      · cases other
      · exact ⟨m.name, nested.sub (List.subset_append_left _ _), .inl ⟨_, rfl⟩⟩

/-- The model of the target of a reference enters under the name that was made for it. -/
theorem Outcome.Spells.assert_target {R : String → Prop} {text location : String} {target : Json}
    {needs : List (Link Model)} {found : Resolved}
    (spells : Outcome.Spells (.ofOwner scope (r.freeName (pointerName text))) target ⟨.model m, needs⟩)
    (spelt : s.Spelt document) (hs : s.Sound R) (here : text.toList.head? = some '#')
    (known : s.named.lookup text = some (r.freeName (pointerName text)))
    (ha : s.assert target (.model m) (some text) .named location = .ok (found, t)) :
    t.Spelt document := by
  obtain _ | ⟨plain, titled, unnamed, shaped, nested⟩ := spells
  have key : keyFor .named target m (some text) = text := by
    have nonempty : text ≠ "" := fun empty => by simp [empty] at here
    simp [keyFor, nonempty]
  have name : m.name = r.freeName (pointerName text) :=
    titled.eq fun empty =>
      pointerName_ne_empty text ((appends_freeVariant r.taken _).eq_empty empty)
  have inner : Nested m.name m.inner := nested.sub (List.subset_append_left _ _)
  refine spelt.assert hs ha (fun _ word => ?_) (fun other => by cases other) fun _ n hn => ?_
  · exact absurd (key ▸ word) (not_isIdentifier_of_head here)
  · obtain ⟨-, hn⟩ | ⟨-, rfl⟩ := hn
    · rw [key, known] at hn
      obtain rfl := Option.some.inj hn
      exact name ▸ .self inner
    · exact ⟨m.name, inner, .inl ⟨_, rfl⟩⟩

/-- The resolution of nodes spells names in this way. -/
def spelling (document : Json) : Traversal document where
  node site v r out s := (extension document (Component.Undeclared document)).node site v r out s ∧
    out.Spells site v ∧
    (r.Sound (Component.Undeclared document) → site.IsSited document v → r.Spelt document →
      s.Spelt document)
  parts owner r links _ s := Traversal.Owned document owner r links s
  handle r text ref s :=
    (extension document (Component.Undeclared document)).handle r text ref s ∧
    (r.Sound (Component.Undeclared document) → r.Spelt document → s.Spelt document)
  nothing := ⟨.refl _, fun _ _ => .nil, fun _ _ => id⟩
  append first rest := ⟨first.1.trans rest.1, fun n hn => (first.2.1 n hn).append (rest.2.1 n hn),
    fun hr sited spelt => rest.2.2 (first.1 hr).1 sited (first.2.2 hr sited spelt)⟩
  weaken whole sub _ := ⟨whole.1, fun n hn => (whole.2.1 n hn).sub sub, whole.2.2⟩
  member {name wanted scope required v r s out fs} under _ resolved := by
    have x : s.Extends (Component.Undeclared document) (s.claimed out.result) := extends_claimed s out.result
    have given : Appends name (r.freeName wanted) := under.trans (appends_freeVariant _ _)
    refine ⟨resolved.1.1.trans x, fun n hn => ?_, fun hr sited spelt => ?_⟩
    · obtain rfl := Option.some.inj hn
      exact resolved.2.1.nested given
    · have spelt := resolved.2.2 hr (.inl ((sited name rfl).appends given)) spelt
      refine spelt.of_eq ((x (resolved.1.1 hr).1).2.of_new) ?_ ?_ ?_ <;> cases out.result <;> rfl
  item {name wanted scope v r s out fs} under resolved := by
    have given : Appends name (r.freeName wanted) := (under name rfl).1.trans (appends_freeVariant _ _)
    refine ⟨resolved.1.1, fun n hn => ?_, fun hr sited =>
      resolved.2.2 hr (.inl ((sited name rfl).appends given))⟩
    obtain rfl := Option.some.inj hn
    exact (resolved.2.1.nested given).sub (List.subset_cons_self _ _)
  reference resolved := ⟨resolved.1.1, fun _ _ => .ref, fun hr _ => resolved.2 hr⟩
  inner {owner site v r s out fs} under declared _ resolved := by
    refine ⟨resolved.1.1, fun n hn => (resolved.2.1.nested (under n hn).1).inner, fun hr sited => ?_⟩
    refine resolved.2.2 hr (.inl ?_)
    cases owner with
    | none => exact .inr (.inl (declared rfl))
    | some n => exact (sited n rfl).appends (under n rfl).1
  content {owner site v r s t out found location fs} under titled _ _ warrant resolved ha := by
    refine ⟨resolved.1.1.trans (extends_assert ha), fun _ _ => .ref, fun hr sited spelt => ?_⟩
    have here : site.IsSited document v := by
      cases owner with
      | none => exact titled.imp_left .inl
      | some n => exact .inl ((sited n rfl).appends (under n rfl).1)
    exact resolved.2.1.assert_content (resolved.2.2 hr here spelt) (resolved.1.1 hr).1 titled sited
      warrant ha
  gathered {r t scope refs ms m found fs} _ _ _ _ sourceless word ha := by
    refine ⟨extends_assert ha, nofun, fun hr _ spelt => ?_⟩
    refine spelt.assert hr ha (fun _ _ => word) nofun fun object => ?_
    rw [sourceless] at object
    cases object
  model {site v r s m links needs} resolved plain made source titled unnamed dependencies branches passed
      shape owned sorted := by
    refine ⟨⟨resolved.1, nofun⟩, .model plain titled unnamed (fun h => (shape h).1) ?_, fun hr here =>
      resolved.2.2 hr fun n hn => Option.some.inj hn ▸ here.model titled unnamed⟩
    exact (resolved.2.1 _ rfl).sub (List.append_subset.2 ⟨List.append_subset.2 ⟨dependencies, branches⟩, passed⟩)
  refers spells resolved := ⟨(extension _ _).refers spells resolved.1, .handle, fun hr _ => resolved.2 hr⟩
  known object plain hf := ⟨(extension _ _).known object plain hf, .handle, fun _ _ => id⟩
  remote outside := ⟨(extension _ _).remote outside, fun _ => id⟩
  declared inside hk := ⟨(extension _ _).declared inside hk, fun _ => id⟩
  followed {r r' s text target reserved ref scope out} new leads reserves resolved ho := by
    refine ⟨(extension document _).followed new leads reserves resolved.1 ho, fun hr spelt => ?_⟩
    have new := (lookupRef_eq_none new).1
    obtain ⟨rfl, rfl⟩ := reserved_eq new reserves
    have here := Pointer.head_of_resolve leads
    have spelt := resolved.2.2 (extends_reserve r text (pointerName text) hr).1
      (.inl (.inr (.inr ⟨text, target, leads, appends_freeVariant _ _⟩)))
      (spelt.reserve new here (pointerName text))
    split
    · exact spelt
    · exact spelt.put (grows_redirect s text ref.name) (fun e he => hr.2 _ new e he) here rfl rfl rfl
  registered {r r' s t text location target reserved scope out m found} new leads reserves resolved ho
      ha := by
    refine ⟨(extension document _).registered new leads reserves resolved.1 ho ha, fun hr spelt => ?_⟩
    have new := (lookupRef_eq_none new).1
    obtain ⟨rfl, rfl⟩ := reserved_eq new reserves
    have here := Pointer.head_of_resolve leads
    have hr' := (extends_reserve r text (pointerName text) hr).1
    have spelt := resolved.2.2 hr'
      (.inl (.inr (.inr ⟨text, target, leads, appends_freeVariant _ _⟩)))
      (spelt.reserve new here (pointerName text))
    obtain ⟨hs, grown⟩ := resolved.1.1 hr'
    have known : s.named.lookup text = some (r.freeName (pointerName text)) :=
      grown.of_new (P := fun _ => False) |>.name id (by simp [reserve_new new])
    obtain ⟨-, spells, -⟩ := resolved
    obtain ⟨result, needs⟩ := out
    obtain rfl : result = .model m := ho
    exact spells.assert_target spelt hs here known ha

namespace Component

variable {e : Entry} {es : List Entry} {ref : Ref}

/-- A component was resolved into a model under its name. -/
def Fits (r : Registry) (e : Entry) (m : Model) : Prop :=
  ∃ name, r.named.lookup e.key = some name ∧ Nested m.name m.inner ∧ (name = m.name ∨ name = "")

theorem Fits.of_grows (h : Fits r e m) (g : Grows (fun _ => False) r s) : Fits s e m := by
  obtain ⟨name, known, fits⟩ := h
  exact ⟨name, g.name id known, fits⟩

/-- Components are resolved into models under their names. -/
theorem resolveEach_fits {resolved : List (Entry × Link Model)} (hr : Ready document es p.registry)
    (h : Runs (resolveEach (resolveNode document) scope es) p resolved q) :
    ∀ e m, (e, Link.model m) ∈ resolved → Fits q.registry e m := by
  induction es generalizing p resolved with
  | nil =>
    obtain ⟨rfl, rfl⟩ := runs_pure.1 h
    exact fun _ _ hm => by cases hm
  | cons e es ih =>
    obtain ⟨link, more, s, hl, hm, rfl⟩ := resolveEach_runs h
    have here := Traversal.resolveComponent (T := spelling document) hr.settled hr.titled hl
    have ready := hr.tail.extend here.1
    have rest := (resolveEach_traversed (spelling document) ready hm).1.1
    intro e' m he
    obtain he | he := List.mem_cons.1 he
    · obtain ⟨rfl, rfl⟩ := Prod.mk.inj he
      obtain ⟨name, known⟩ := hr.named e' List.mem_cons_self
      have x := (here.1.trans rest) hr.sound
      refine ⟨name, x.2.of_new (P := fun _ => False) |>.name id known, ?_⟩
      obtain ⟨site, v, needs, -, wanted, -, spells, -⟩ | ⟨-, wanted, inner⟩ :=
        Traversal.resolveComponent_model (spelling document) hl
      · rw [canonical_of_named known] at wanted
        cases spells with
        | model _ titled _ _ nested =>
          refine ⟨nested.sub (List.subset_append_left _ _), ?_⟩
          exact titled.imp (fun same => (same.trans wanted).symm) fun own => wanted ▸ own.1
      · rw [canonical_of_named known] at wanted
        exact ⟨inner ▸ .nil, .inl wanted.symm⟩
    · exact ih ready hm e' m he

/-- A model that is registered for a component gets its name. -/
theorem spelt_assert {raw : Json} {location : String} {found : Resolved} {es : List Entry}
    (hr : Ready document es r) (spelt : r.Spelt document) {name : String}
    (known : r.named.lookup e.key = some name)
    (based : m.source.isObject = true → Based document s name m)
    (ha : r.assert raw (.model m) (some e.key) .named location = .ok (found, s)) : s.Spelt document := by
  have key : keyFor .named raw m (some e.key) = e.key := keyFor_key raw m e
  refine spelt.assert hr.sound ha (fun _ word => ?_) nofun fun object n hn => ?_
  · exact absurd (key ▸ word) (not_isIdentifier_of_head (head_key e))
  · rw [key] at hn
    obtain ⟨-, hn⟩ | ⟨absent, -⟩ := hn
    · rw [known] at hn
      exact Option.some.inj hn ▸ based object
    · cases known.symm.trans absent

/-- The copy for an alias holds what its target holds. -/
theorem nested_aliasModel {name location : String} (spelt : r.Spelt document)
    (h : aliasModel r e name location ref = some m) (object : m.source.isObject = true) :
    ∃ base, Nested base m.inner := by
  obtain ⟨-, rfl⟩ | ⟨known, k, hk, rfl⟩ := aliasModel_cases h
  · exact ⟨"", .ref⟩
  · obtain ⟨base, nested, -⟩ := spelt.models hk object
    exact ⟨base, nested⟩

theorem base_spelt (document : Json) : (base document).Spelt document := by
  obtain ⟨models, structural, -⟩ := foldl_reserved .empty (listed document)
  refine ⟨fun hn word => ?_, fun hc => ?_, fun hm => ?_⟩
  · obtain ⟨e, -, rfl⟩ := key_of_base hn
    exact absurd word (not_isIdentifier_of_head (head_key e))
  · rw [base, structural] at hc
    cases hc
  · rw [base, models] at hm
    cases hm

/-- The collection of components spells names in this way. -/
theorem collect_spelt (named : scope.space = .named) (hp : p.registry = .empty)
    (h : Runs (collect document (resolveNode document) scope) p () q) : q.registry.Spelt document := by
  obtain ⟨resolved, s, t, order, he, hf, ho, hperm⟩ := collect_runs h
  rw [hp] at he
  obtain ⟨⟨grown, -, spells⟩, hes, hres⟩ :=
    resolveEach_traversed (spelling document) (base_ready document) he
  have hs : Ready document (listed document) s.registry := (base_ready document).extend grown
  have made := resolveEach_fits (base_ready document) he
  have hmem : ∀ x ∈ resolved, x.1 ∈ listed document := fun x hm => hes ▸ List.mem_map_of_mem hm
  obtain ⟨⟨-, spelt⟩, x, -⟩ := register_induction
    (I := fun r => s.registry.Extends (Undeclared document) r ∧ r.Spelt document) hs hmem
    (fun e m hm => Resolves.plain (hres (e, .model m) hm))
    (fun e m r _ _ _ hm ready ⟨grown, spelt⟩ ha => by
      refine ⟨grown.trans (extends_assert ha), ?_⟩
      obtain ⟨name, known, nested, named⟩ := (made e m hm).of_grows ((grown hs.sound).2.of_new)
      refine spelt_assert ready spelt known (fun _ => ⟨m.name, nested, ?_⟩) ha
      exact named.imp (fun same => ⟨[], same.trans (freeVariant_of_not_mem List.not_mem_nil).symm⟩) .inl)
    ⟨.refl _, spells (base_ready document).sound nofun (base_spelt document)⟩ hf
  have aliased : ∀ x ∈ order, (x.1, Link.ref x.2) ∈ resolved :=
    fun _ hm => mem_aliases (hperm.mem_iff.1 hm)
  refine (aliased_induction (I := fun r => r.Spelt document) (hs.extend x)
    (fun y hy => hmem _ (aliased y hy)) ?_ spelt ho).1
  intro e ref m r u location found hm ready copied spelt ha
  have mem : e ∈ listed document := hmem _ (aliased (e, ref) hm)
  have refers : e.node.has "$ref" = true :=
    Resolves.isRef (named ▸ hres (e, .ref ref) (aliased (e, ref) hm))
  obtain ⟨name, known⟩ := ready.named e mem
  refine spelt_assert ready spelt known (fun object => ?_) ha
  obtain ⟨base, nested⟩ := nested_aliasModel spelt copied object
  have grown : Grows (fun _ => False) r u := ((extends_assert ha) ready.sound).2.of_new
  exact ⟨base, nested, .inr (.inr ⟨e, mem, refers, grown.name id known⟩)⟩

end Component

variable {τ : Type} {g g' : Graph τ}

/-- The registry that an accepted document leaves spells names in this way. -/
theorem Graph.Accepts.spelt (h : Graph.Accepts g document g') : g'.registry.Spelt document := by
  obtain ⟨s, t, walked, hc, hp, hr, -⟩ := h.walked
  have collected := Component.collect_collected rfl hc
  obtain ⟨-, -, spells⟩ : Traversal.Owned document none s.registry _ t.registry :=
    Traversal.resolvePaths (T := spelling document) hp
  exact hr ▸ spells collected.ready.sound nofun (Component.collect_spelt rfl rfl hc)

/-- A handle has the name of a key that is an identifier. -/
def Registry.Keys (r : Registry) (ref : Ref) : Prop :=
  ∃ key, IsIdentifier key ∧ r.named.lookup key = some ref.name

theorem Registry.Keys.of_grows {ref : Ref} (h : r.Keys ref) (g : Grows (fun _ => False) r s) :
    s.Keys ref := by
  obtain ⟨key, word, known⟩ := h
  exact ⟨key, word, g.name id known⟩

/-- Parameters are gathered under a key. -/
theorem Parameter.gather_keys {refs : List Ref} {ref? : Option Ref} {name : String}
    (word : IsIdentifier name) (h : Runs (gather scope refs name) p ref? q) :
    ∀ ref ∈ ref?.toList, q.registry.Keys ref := by
  obtain ⟨-, rfl⟩ | ⟨ms, m, found, t, -, -, -, -, -, -, ha, rfl, rfl⟩ := gather_runs h
  · nofun
  intro ref hr
  obtain rfl : ref = found.ref := by simpa using hr
  obtain ⟨n, named, known⟩ := register_indexed (assert_model (by rfl) ha)
  rw [show keyFor .named .null m (some name) = name by simp [keyFor, word.1]] at known
  exact ⟨name, word, by rw [named]; exact known⟩

namespace Method

variable {verb : Verb} {path : String} {item operation : Json}

/-- The handles of the gathered parameters of an operation. -/
def groups (m : Method) : List Ref :=
  m.pathObject.toList ++ m.queryObject.toList ++ m.headerObject.toList

/-- The parameters of an operation are gathered under keys. -/
theorem resolveOpening_keys {R : String → Prop} {a : Opening} (sound : p.registry.Sound R)
    (h : Runs (resolveOpening document (resolveNode document) scope verb path item operation) p a q) :
    ∀ ref ∈ a.pathObject.toList ++ a.queryObject.toList ++ a.headerObject.toList,
      q.registry.Keys ref := by
  obtain ⟨given, params, p₁, p₂, p₃, p₄, hn, -, hr, hg, h₁, h₂, h₃⟩ := resolveOpening_runs h
  have word {suffix : String} (suffixed : IsIdentifier suffix) : IsIdentifier (a.name ++ suffix) :=
    hn ▸ Traversal.isIdentifier_aggregate suffixed
  have params : p₁.registry.Extends R p₂.registry :=
    Traversal.resolveParameters (T := extension document R) hg
  rw [hr] at params
  obtain ⟨sound₃, -⟩ := extends_gather h₁ (params sound).1
  obtain ⟨sound₄, grown₄⟩ := extends_gather h₂ sound₃
  obtain ⟨-, grown⟩ := extends_gather h₃ sound₄
  intro ref mem
  obtain mem | mem := List.mem_append.1 mem
  · obtain mem | mem := List.mem_append.1 mem
    · exact ((Parameter.gather_keys (word (by decide +kernel)) h₁ ref mem).of_grows
        grown₄.of_new).of_grows grown.of_new
    · exact (Parameter.gather_keys (word (by decide +kernel)) h₂ ref mem).of_grows grown.of_new
  · exact Parameter.gather_keys (word (by decide +kernel)) h₃ ref mem

/-- The name of an operation has word characters only. It is empty only if the operation has an
identifier without any. The models of its gathered parameters have identifiers. -/
structure Spelt (m : Method) : Prop where
  word : ∀ c ∈ m.name.toList, Text.isWord c = true
  named : m.name = "" → ∃ identifier, m.operationId = some identifier ∧ identifier ≠ "" ∧
    ∀ c ∈ identifier.toList, Text.isWord c = false
  groups : ∀ ref ∈ m.groups, IsIdentifier ref.name

/-- An operation is spelt in this way by a registry that is. -/
theorem resolve_spelt {m : Method} {final : Registry} (spelt : final.Spelt document)
    (mid : Midway document final p)
    (h : Runs (resolve document (resolveNode document) scope verb path item operation) p m q)
    (after : ∀ R : String → Prop, q.registry.Extends R final) : m.Spelt := by
  rw [resolve_eq, runs_bind] at h
  obtain ⟨a, s, opening, rest⟩ := h
  have keys := resolveOpening_keys mid.ready.sound opening
  obtain ⟨given, -, -, -, -, -, hn, spells, -⟩ := resolveOpening_runs opening
  obtain ⟨_, opened⟩ := Traversal.reaches_opening
    (T := extension document (Component.Undeclared document)) opening
  obtain ⟨_, ended⟩ := Traversal.reaches_rest
    (T := extension document (Component.Undeclared document)) rest
  have grown : Grows (fun _ => False) s.registry final :=
    ((Extends.trans ended (after _)) (opened mid.ready.sound).1).2.of_new
  obtain ⟨same, -⟩ := resolveRest_runs rest
  rw [same]
  refine ⟨?_, fun empty => ?_, fun ref mem => ?_⟩
  · change ∀ c ∈ a.name.toList, _
    rw [hn]
    refine (appends_freeVariant _ _).isWord fun c hc => ?_
    rw [String.toList_ofList] at hc
    exact Naming.isWord_of_mem_method hc
  · have none := (appends_freeVariant p.methodNames _).eq_empty (hn.symm.trans empty)
    obtain ⟨some, bare⟩ := (Naming.method_eq_nil verb.exists_isWord).1 (String.ofList_eq_empty_iff.1 none)
    refine ⟨_, spells some, fun empty => some (String.ofList_eq_empty_iff.1 empty), ?_⟩
    rw [String.toList_ofList]
    exact Naming.keepWords_eq_nil.1 bare
  · obtain ⟨key, word, known⟩ := (keys ref mem).of_grows grown
    exact spelt.named known word

end Method

/-- The operations of a graph are those of the visits that account for it. -/
theorem Graph.Account.stop_of_mem {visits : List Visit} (h : Graph.Account document g' visits)
    {x : String × Method} (hx : x ∈ g'.methods) : ∃ v ∈ visits, ∃ stop ∈ v.stops, stop.method = x.2 := by
  rw [h.methods] at hx
  obtain ⟨walked, hw, hx⟩ := List.mem_flatMap.1 (Dict.mem_ofEntries hx)
  obtain ⟨m, hm, rfl⟩ := List.mem_map.1 hx
  obtain ⟨v, hv, rfl⟩ := List.mem_map.1 hw
  obtain ⟨stop, hs, rfl⟩ := List.mem_map.1 hm
  exact ⟨v, hv, stop, hs, rfl⟩

/-- The names of an accepted document are identifiers, also those of inline parameters, headers and
payloads, which are registered by their content; but for an operation whose identifier has no word
character, and for schemas of declared parameters, which are named after these. What stands inside of
a model continues the name under which it was resolved. -/
theorem names_are_identifiers (h : Graph.Accepts g document g') :
    (∀ x ∈ g'.methods, x.2.Spelt) ∧
    (∀ content name, g'.registry.structural.lookup content = some name →
      Entitles document content name) ∧
    ∀ name m, g'.registry.models.lookup name = some m → m.source.isObject = true →
      Based document g'.registry name m := by
  obtain ⟨visits, account⟩ := h.account
  refine ⟨fun x hx => ?_, fun _ _ => h.spelt.content, fun _ _ => h.spelt.models⟩
  obtain ⟨v, hv, stop, hs, same⟩ := account.stop_of_mem hx
  obtain ⟨scope, p, q, mid, run, after⟩ := account.operation hv hs
  exact same ▸ Method.resolve_spelt h.spelt mid run after

/-- A parameter whose name is not spelt in ASCII. -/
def umlauts.asking : String × Json :=
  ("parameters", .arr [.obj [("name", .str "größte Zahl"), ("in", .str "query")]])

/-- Responses whose media type and members are not. -/
def umlauts.answering : String × Json :=
  ("responses", .obj [("200", .obj [("content", .obj [("text/çsv", .obj [("schema", .obj [
    ("properties", .obj [("né à", .obj [("properties", .obj [])])])])])])])])

/-- A document of one operation with this identifier and this part. Next to nothing in it is spelt in
ASCII. -/
def umlauts (identifier : String) (part : String × Json) : Json :=
  .obj [("openapi", .str "3.0.0"), ("paths", .obj [("/größe", .obj [("get", .obj [
    ("operationId", .str identifier), ("tags", .arr [.str "à la carte"]), part])])])]

/-- The graph that the document leaves. -/
def umlauts.graph (identifier : String) (part : String × Json) : Graph Unit :=
  (Graph.empty.parse (umlauts identifier part) none).graph

/-- The names of the operations and of the registered models. -/
def umlauts.names (identifier : String) (part : String × Json) : List String × List String :=
  let g := graph identifier part
  (g.methods.map (·.2.name), Dict.keys g.registry.models)

theorem names_are_identifiers_umlauts :
    let document := umlauts "größe anzeigen" umlauts.answering
    let g' := umlauts.graph "größe anzeigen" umlauts.answering
    Graph.Accepts Graph.empty document g' ∧
      umlauts.names "größe anzeigen" umlauts.answering = (["GrEAnzeigen"], ["LaCarteGreGetTextSv200"]) ∧
      umlauts.names "größe anzeigen" umlauts.asking =
        (["GrEAnzeigen"], ["QueryGrteZahl", "GrEAnzeigenQuery"]) ∧
      (∀ x ∈ g'.methods, x.2.Spelt) ∧
      (∀ content name, g'.registry.structural.lookup content = some name →
        Entitles document content name) ∧
      ∀ name m, g'.registry.models.lookup name = some m → m.source.isObject = true →
        Based document g'.registry name m := by
  intro document g'
  have accepted : Graph.Accepts Graph.empty document g' := .of_isOk (by decide +kernel)
  exact ⟨accepted, by decide +kernel, by decide +kernel, names_are_identifiers accepted⟩

/-- An operation whose identifier has no word character has the empty name, although one whose
identifier is empty is named after its path. -/
theorem operation_without_name :
    Graph.Accepts Graph.empty (umlauts "¡!" umlauts.answering) (umlauts.graph "¡!" umlauts.answering) ∧
      (∃ x ∈ (umlauts.graph "¡!" umlauts.answering).methods, ¬ IsIdentifier x.2.name) ∧
      (umlauts.names "¡!" umlauts.answering).1 = [""] ∧
      (umlauts.names "" umlauts.answering).1 = ["GetGrE"] :=
  ⟨.of_isOk (by decide +kernel), by decide +kernel, by decide +kernel, by decide +kernel⟩

end ApiGraph
