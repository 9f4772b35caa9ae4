import ApiGraph.Proofs.Faithful

/-! The registry stays faithful to the document while nodes are resolved. A name that is pending
may stand for several references; they have the same end, so that the model that takes the name
stands for all of them. -/

namespace ApiGraph

open Resolving Registry

/-- Where a reference leads that was resolved into a handle: its chase comes to nothing, or it has the
name of the handle. -/
inductive Arrives (document : Json) (r : Registry) (text : String) (ref : Ref) : Prop
  | out {refs : List String} {lost : String} (remote : ref.isRemote = true)
    (chase : Chase document (.link text) refs (.missing lost))
  | inside (inner : ref.isRemote = false) (here : Pointer.isLocal text = true)
    (named : r.named.lookup text = some ref.name)

/-- What a node was resolved into: a model that was made from it, the handle of its reference, or the
handle of an equal node. -/
inductive Answers (document : Json) (r : Registry) (v : Json) : Link Model → Prop
  | made {m : Model} (source : m.source = v) (plain : v.has "$ref" = false) :
    Answers document r v (.model m)
  | refers {text : String} {ref : Ref} (spells : v.get? "$ref" = some (.str text))
    (leads : Arrives document r text ref) : Answers document r v (.ref ref)
  | equal {name : String} (object : v.isObject = true) (plain : v.has "$ref" = false)
    (known : r.structural.lookup v.canonical = some name) (model : r.contains name = true) :
    Answers document r v (.ref (.named name))

namespace Registry

/-- The registry is faithful as long as its names are clean. -/
def Trusted (document : Json) (r : Registry) : Prop := r.Clean document → r.Faithful document

/-- A registry that comes from a faithful one is faithful. -/
def Trusts (document : Json) (r s : Registry) : Prop :=
  r.Extends (Component.Undeclared document) s ∧
    (r.Sound (Component.Undeclared document) → r.Trusted document → s.Trusted document)

variable {document v target : Json} {r s t : Registry} {text name location : String} {m : Model}
  {link : Link Model} {found : Resolved} {ref : Ref}

theorem Trusts.refl (r : Registry) : r.Trusts document r := ⟨.refl r, fun _ => id⟩

theorem Trusts.trans (h₁ : r.Trusts document s) (h₂ : s.Trusts document t) : r.Trusts document t :=
  ⟨h₁.1.trans h₂.1, fun hr faithful => h₂.2 (h₁.1 hr).1 (h₁.2 hr faithful)⟩

/-- A change keeps the registry faithful if it does so when the names are clean. -/
theorem Trusted.of_extends (h : r.Trusted document) (hr : r.Sound (Component.Undeclared document))
    (x : r.Extends (Component.Undeclared document) s)
    (keeps : s.Clean document → r.Faithful document → s.Faithful document) : s.Trusted document :=
  fun clean => keeps clean (h (clean.of_extends hr x))

theorem trusts_claimed (r : Registry) (link : Link Model) : r.Trusts document (r.claimed link) := by
  refine ⟨extends_claimed r link, fun hr trusted => trusted.of_extends hr (extends_claimed r link) ?_⟩
  cases link with
  | ref _ => exact fun _ => id
  | model m => exact fun _ faithful => faithful.of_eq rfl rfl rfl

theorem trusts_reserve (leads : Pointer.resolve document text = some target)
    (new : r.named.lookup text = none) :
    r.Trusts document (r.reserve text (pointerName text)).2 := by
  refine ⟨extends_reserve r text _, fun hr trusted =>
    trusted.of_extends hr (extends_reserve r text _) fun _ faithful => ?_⟩
  exact faithful.reserve hr.1 new (Pointer.isLocal_of_resolve leads) (pointerName_ne_empty text)
    (Pointer.isLocal_pointerName text)

/-- What a node was resolved into is registered for the content of the node. -/
theorem Trusted.content (h : s.Trusted document) (hs : s.Sound (Component.Undeclared document))
    (answers : s.Clean document → Answers document s v link)
    (ha : s.assert v link none .structural location = .ok (found, t)) : t.Trusted document := by
  refine h.of_extends hs (extends_assert ha) fun clean faithful => ?_
  obtain rfl | ⟨m, rfl, hm⟩ := assert_cases ha
  · exact faithful
  · have made : m.source = v := by
      cases answers (clean.of_extends hs (extends_assert ha)) with
      | made source => exact source
    exact faithful.store hs.1 clean (made ▸ rfl) (congrArg Prod.snd hm)

/-- A model without a node is registered under its own name. -/
theorem trusts_gathered (sourceless : m.source = .null)
    (ha : r.assert .null (.model m) (some m.name) .named location = .ok (found, s)) :
    r.Trusts document s := by
  refine ⟨extends_assert ha, fun hr trusted =>
    trusted.of_extends hr (extends_assert ha) fun clean faithful => ?_⟩
  have hm := assert_model (by rfl) ha
  rw [show keyFor .named .null m (some m.name) = m.name by simp [keyFor]] at hm
  exact faithful.gather hr.1 clean (by rw [sourceless]; rfl) (congrArg Prod.snd hm)

/-- A reference that was followed to a handle has the name of the handle. -/
theorem Trusted.followed (h : s.Trusted document)
    (undeclared : Component.Undeclared document text)
    (leads : Pointer.resolve document text = some target)
    (answers : s.Clean document → Answers document s target (.ref ref)) :
    (if ref.isRemote then s else s.redirect text ref.name).Trusted document ∧
      ((if ref.isRemote then s else s.redirect text ref.name).Clean document →
        Arrives document (if ref.isRemote then s else s.redirect text ref.name) text ref) := by
  have here := Pointer.isLocal_of_resolve leads
  split
  · next remote =>
    refine ⟨h, fun clean => ?_⟩
    cases answers clean with
    | refers spells further =>
      cases further with
      | out _ chase =>
        exact .out remote (.next (Json.get?_link text) leads ((Chase.of_link spells).2 chase))
      | inside inner => cases remote.symm.trans inner
    | equal => cases remote
  · next remote =>
    have remote : ref.isRemote = false := by simpa using remote
    refine ⟨fun clean => ?_, fun _ => .inside remote here (Dict.lookup_put_self _ _ _)⟩
    have clean : s.Clean document := clean.of_grows (grows_redirect s text ref.name)
      fun e he _ => undeclared e he
    have faithful := h clean
    cases answers clean with
    | @refers next _ spells further =>
      cases further with
      | out outer => cases remote.symm.trans outer
      | inside _ near named =>
        have same (source : Json) :
            Represents document text source ↔ Represents document next source :=
          represents_iff undeclared leads spells
        exact faithful.point here rfl rfl rfl (faithful.plain named)
          (fun hm object => (same _).2 (faithful.source near named hm object))
          fun near' named' absent source => (same source).trans
            ⟨faithful.shared near near' named named' absent source,
              faithful.shared near' near named' named absent source⟩
    | @equal name object plain known model =>
      refine faithful.point here rfl rfl rfl (clean.model model) (fun hm _ => ?_) fun _ _ absent => ?_
      · exact .of_leads leads object (by simpa [Json.has] using plain)
          (Json.canonical_eq_iff.1 (faithful.content known hm))
      · cases model.symm.trans absent

/-- A reference that was followed to a model is the name of the model. -/
theorem Trusted.registered (h : s.Trusted document) (hs : s.Sound (Component.Undeclared document))
    (leads : Pointer.resolve document text = some target)
    (named : s.named.lookup text = some name)
    (answers : s.Clean document → Answers document s target (.model m))
    (ha : s.assert target (.model m) (some text) .named location = .ok (found, t)) :
    t.Trusted document ∧ (t.Clean document → Arrives document t text found.ref) := by
  have here := Pointer.isLocal_of_resolve leads
  have register (plain : target.has "$ref" = false) : s.register .named text m = (found, t) := by
    have nonempty : text ≠ "" := by
      rintro rfl
      cases here
    have hm := assert_model plain ha
    rwa [show keyFor .named target m (some text) = text by simp [keyFor, nonempty]] at hm
  have x : s.Extends (Component.Undeclared document) t := extends_assert ha
  refine ⟨h.of_extends hs x fun clean faithful => ?_, fun clean => ?_⟩
  · cases answers (clean.of_extends hs x) with
    | made source plain =>
      refine faithful.declare hs.1 here named (congrArg Prod.snd (register plain))
        fun object => ?_
      exact .of_leads leads (source ▸ object) (by simpa [Json.has] using plain) (.of_eq source)
  · cases answers (clean.of_extends hs x) with
    | made source plain =>
      have ref : found.ref = .named name := by
        rw [← register_ref (show s.indexed .named text = some name from named) m, register plain]
      rw [ref]
      exact .inside rfl here (((x hs).2.of_new (P := fun _ => False)).name id named)

end Registry

/-- The resolution of nodes keeps the registry faithful. -/
def fidelity (document : Json) : Traversal document where
  node site v r out s := (extension document (Component.Undeclared document)).node site v r out s ∧
    (r.Sound (Component.Undeclared document) → r.Trusted document →
      s.Trusted document ∧ (s.Clean document → Answers document s v out.result))
  parts _ r _ _ s := r.Trusts document s
  handle r text ref s :=
    (extension document (Component.Undeclared document)).handle r text ref s ∧
    (r.Sound (Component.Undeclared document) → r.Trusted document →
      s.Trusted document ∧ (s.Clean document → Arrives document s text ref))
  nothing := .refl _
  append := .trans
  weaken whole _ _ := whole
  member _ _ resolved :=
    Trusts.trans ⟨resolved.1.1, fun hr trusted => (resolved.2 hr trusted).1⟩ (trusts_claimed _ _)
  item _ resolved := ⟨resolved.1.1, fun hr trusted => (resolved.2 hr trusted).1⟩
  reference resolved := ⟨resolved.1.1, fun hr trusted => (resolved.2 hr trusted).1⟩
  inner _ _ _ resolved := ⟨resolved.1.1, fun hr trusted => (resolved.2 hr trusted).1⟩
  content _ _ _ _ _ resolved ha := by
    refine ⟨resolved.1.1.trans (extends_assert ha), fun hr trusted => ?_⟩
    obtain ⟨hs, answers⟩ := resolved.2 hr trusted
    exact hs.content (resolved.1.1 hr).1 answers ha
  gathered _ _ _ _ sourceless _ ha := trusts_gathered sourceless ha
  model resolved plain made source _ _ _ _ _ _ _ _ :=
    ⟨⟨resolved.1, nofun⟩, fun hr trusted => ⟨resolved.2 hr trusted, fun _ => .made source plain⟩⟩
  refers spells resolved := ⟨(extension _ _).refers spells resolved.1, fun hr trusted =>
    ⟨(resolved.2 hr trusted).1, fun clean => .refers spells ((resolved.2 hr trusted).2 clean)⟩⟩
  known object plain hf := by
    refine ⟨(extension _ _).known object plain hf, fun _ trusted => ⟨trusted, fun _ => ?_⟩⟩
    obtain ⟨name, rfl, known, model⟩ := findStructural_eq_some hf
    exact .equal object plain known model
  remote outside := ⟨(extension _ _).remote outside, fun _ trusted =>
    ⟨trusted, fun _ => .out rfl (.of_outside outside)⟩⟩
  declared {r text ref} inside hk := by
    refine ⟨(extension _ _).declared inside hk, fun _ trusted => ⟨trusted, fun clean => ?_⟩⟩
    obtain ⟨name, rfl, hn | ⟨rfl, hc⟩⟩ := lookupRef_eq_some hk
    · exact .inside rfl inside hn
    · rw [clean.model hc] at inside
      cases inside
  followed {r r' s text target reserved ref scope out} new leads reserves h ho := by
    refine ⟨(extension document _).followed new leads reserves h.1 ho, fun hr trusted => ?_⟩
    have new := (lookupRef_eq_none new).1
    obtain ⟨rfl, rfl⟩ := reserved_eq new reserves
    have x : r.Trusts document (r.reserve text (pointerName text)).2 := trusts_reserve leads new
    obtain ⟨hs, answers⟩ := h.2 (x.1 hr).1 (x.2 hr trusted)
    rw [ho] at answers
    exact hs.followed (hr.2 _ new) leads answers
  registered {r r' s t text location target reserved scope out m found} new leads reserves h ho ha := by
    refine ⟨(extension document _).registered new leads reserves h.1 ho ha, fun hr trusted => ?_⟩
    have new := (lookupRef_eq_none new).1
    obtain ⟨rfl, rfl⟩ := reserved_eq new reserves
    have x : r.Trusts document (r.reserve text (pointerName text)).2 := trusts_reserve leads new
    obtain ⟨hs, answers⟩ := h.2 (x.1 hr).1 (x.2 hr trusted)
    rw [ho] at answers
    have named : s.named.lookup text = some (r.freeName (pointerName text)) :=
      ((h.1.1 (x.1 hr).1).2.of_new (P := fun _ => False)).name id (by simp [reserve_new new])
    exact hs.registered (h.1.1 (x.1 hr).1).1 leads named answers ha

namespace Component

variable {document : Json} {e : Entry} {es : List Entry} {p q : Progress} {r s : Registry}
  {scope : Scope} {text : String} {ref : Ref} {m : Model}

/-- Before anything is resolved, each name stands for one component. -/
theorem base_trusted (document : Json) : (base document).Trusted document := by
  intro clean
  have models (name : String) : (base document).models.lookup name = none := by
    rw [base_models]
    rfl
  refine ⟨fun _ _ hm => ?_, fun _ _ hn hn' _ => ?_, fun _ hm => ?_, fun outside hn => ?_, fun hn => ?_⟩
  · rw [models] at hm
    cases hm
  · rw [oneKey_base document hn hn']
    exact fun _ => id
  · rw [models] at hm
    cases hm
  · obtain ⟨e, -, rfl⟩ := key_of_base hn
    rw [isLocal_key] at outside
    cases outside
  · obtain ⟨e, he, rfl⟩ := key_of_base hn
    exact clean.component he hn

/-- A handle keeps its reference, whatever is resolved next. -/
theorem arrives_of_extends {R : String → Prop} (h : Arrives document r text ref) (hr : r.Sound R)
    (x : r.Extends R s) : Arrives document s text ref := by
  cases h with
  | out remote chase => exact .out remote chase
  | inside inner here named =>
    exact .inside inner here (((x hr).2.of_new (P := fun _ => False)).name id named)

/-- The aliases among resolved components lead where their handles do. -/
def Led (document : Json) (r : Registry) (resolved : List (Entry × Link Model)) : Prop :=
  ∀ e ref, (e, Link.ref ref) ∈ resolved →
    ∃ text, e.node.get? "$ref" = some (.str text) ∧ Arrives document r text ref

theorem resolveEach_trusted {resolved : List (Entry × Link Model)} (named : scope.space = .named)
    (hr : Ready document es p.registry) (trusted : p.registry.Trusted document)
    (h : Runs (resolveEach (resolveNode document) scope es) p resolved q) :
    q.registry.Trusted document ∧ (q.registry.Clean document → Led document q.registry resolved) := by
  induction es generalizing p resolved with
  | nil =>
    obtain ⟨rfl, rfl⟩ := runs_pure.1 h
    exact ⟨trusted, fun _ _ _ hm => by cases hm⟩
  | cons e es ih =>
    obtain ⟨link, more, s, hl, hm, rfl⟩ := resolveEach_runs h
    have here : p.registry.Trusts document s.registry :=
      Traversal.resolveComponent (T := fidelity document) hr.settled hr.titled hl
    have ready := hr.tail.extend here.1
    obtain ⟨hq, led⟩ := ih ready (here.2 hr.sound trusted) hm
    have rest := (resolveEach_traversed (fidelity document) ready hm).1.1
    refine ⟨hq, fun clean e' ref he => ?_⟩
    rcases List.mem_cons.1 he with he | he
    · obtain ⟨rfl, rfl⟩ := Prod.mk.inj he
      obtain ⟨text, spells, handle⟩ := resolve_alias (fidelity document) named hl
      have leads := (handle.2 hr.sound trusted).2 (clean.of_extends ready.sound rest)
      exact ⟨text, spells, arrives_of_extends leads ready.sound rest⟩
    · exact led clean e' ref he

/-- The model of a component stands for the component. -/
theorem trusted_register {raw : Json} {location : String} {found : Resolved}
    (hr : Ready document (listed document) r) (he : e ∈ listed document) (plain : raw.has "$ref" = false)
    (trusted : r.Trusted document)
    (represents : r.Clean document → m.source.isObject = true → Represents document e.key m.source)
    (ha : r.assert raw (.model m) (some e.key) .named location = .ok (found, s)) :
    s.Trusted document := by
  have x : r.Extends (Undeclared document) s := extends_assert ha
  refine trusted.of_extends hr.sound x fun clean faithful => ?_
  have hm := assert_model plain ha
  rw [keyFor_key] at hm
  obtain ⟨name, hn⟩ := hr.named e he
  exact faithful.declare hr.sound.1 (isLocal_key e) hn (congrArg Prod.snd hm)
    (represents (clean.of_extends hr.sound x))

/-- The copy that is registered for an alias stands for it. -/
theorem represents_aliasModel {name location : String} (unique : Unrepeated document)
    (he : e ∈ listed document) (faithful : r.Faithful document)
    (spells : e.node.get? "$ref" = some (.str text)) (leads : Arrives document r text ref)
    (hm : aliasModel r e name location ref = some m) (object : m.source.isObject = true) :
    Represents document e.key m.source := by
  cases leads with
  | out remote chase => exact .missing unique he spells chase
  | inside inner here named =>
    rw [aliasModel, if_neg (by simp [inner])] at hm
    obtain ⟨k, hk, rfl⟩ := Option.map_eq_some_iff.1 hm
    obtain ⟨found, hf, hk⟩ := Option.bind_eq_some_iff.1 hk
    unfold Registry.resolve at hf
    obtain ⟨k, hl, rfl⟩ := Option.map_eq_some_iff.1 hf
    obtain rfl := Option.some.inj hk
    change Represents document e.key k.source
    refine .alias unique he spells ?_
    split at hl
    · exact faithful.source here named hl object
    · next absent =>
      -- The name of a handle reads as no reference, so that it is no key of a node.
      cases hn : r.named.lookup ref.name with
      | none =>
        rw [hn] at hl
        exact absurd (contains_iff.2 ⟨_, hl⟩) absent
      | some other =>
        rw [hn] at hl
        obtain ⟨k, known, foreign⟩ := faithful.outside (faithful.plain named) hn
        obtain rfl := Option.some.inj (known.symm.trans hl)
        cases foreign.symm.trans object

/-- A component that was resolved into a model is registered. -/
theorem trusted_declare {space : KeySpace} {location : String} {found : Resolved}
    (unique : Unrepeated document) (hr : Ready document (listed document) r) (he : e ∈ listed document)
    (resolves : Resolves document space e (.model m)) (trusted : r.Trusted document)
    (ha : r.assert e.node (.model m) (some e.key) .named location = .ok (found, s)) :
    s.Trusted document := by
  have plain := resolves.plain
  refine trusted_register hr he plain trusted (fun _ _ => ?_) ha
  rw [resolves.source]
  exact .component unique he resolves.isObject (by simpa [Json.has] using plain)

/-- An alias is registered with the model of its target. -/
theorem trusted_copy {name location : String} {found : Resolved} (unique : Unrepeated document)
    (hr : Ready document (listed document) r) (he : e ∈ listed document)
    (leads : r.Clean document → ∃ text, e.node.get? "$ref" = some (.str text) ∧
      Arrives document r text ref) (trusted : r.Trusted document)
    (hm : aliasModel r e name location ref = some m)
    (ha : r.assert .null (.model m) (some e.key) .named location = .ok (found, s)) :
    s.Trusted document := by
  refine trusted_register hr he rfl trusted (fun clean object => ?_) ha
  obtain ⟨text, spells, leads⟩ := leads clean
  exact represents_aliasModel unique he (trusted clean) spells leads hm object

/-- The collection of components leaves a registry that is faithful. -/
theorem collect_trusted (unique : Unrepeated document) (named : scope.space = .named)
    (hp : p.registry = .empty) (h : Runs (collect document (resolveNode document) scope) p () q) :
    q.registry.Trusted document := by
  obtain ⟨resolved, s, t, order, he, hf, ho, hperm⟩ := collect_runs h
  rw [hp] at he
  obtain ⟨trusted, led⟩ := resolveEach_trusted named (base_ready document) (base_trusted document) he
  obtain ⟨hx, hes, hres⟩ := resolveEach_traversed (extension document (Undeclared document))
    (base_ready document) he
  have hs : Ready document (listed document) s.registry := (base_ready document).extend hx
  have hmem : ∀ x ∈ resolved, x.1 ∈ listed document := fun x hm => hes ▸ List.mem_map_of_mem hm
  obtain ⟨trusted, x, -⟩ := register_induction (I := Registry.Trusted document) hs hmem
    (fun e m hm => Resolves.plain (hres (e, .model m) hm))
    (fun e m r _ _ _ hm ready trusted ha =>
      trusted_declare unique ready (hmem (e, .model m) hm) (hres (e, .model m) hm) trusted ha) trusted hf
  have aliased : ∀ x ∈ order, (x.1, Link.ref x.2) ∈ resolved :=
    fun _ hm => mem_aliases (hperm.mem_iff.1 hm)
  -- Where an alias leads was settled when it was resolved, and nothing takes that back.
  refine (aliased_induction
    (I := fun r => s.registry.Extends (Undeclared document) r ∧ r.Trusted document)
    (hs.extend x) (fun y hy => hmem _ (aliased y hy)) ?_ ⟨x, trusted⟩ ho).1.2
  intro e ref m r u location found hm ready copied ⟨grown, trusted⟩ ha
  have leads (clean : r.Clean document) : ∃ text, e.node.get? "$ref" = some (.str text) ∧
      Arrives document r text ref := by
    obtain ⟨text, spells, leads⟩ := led (clean.of_extends hs.sound grown) e ref (aliased (e, ref) hm)
    exact ⟨text, spells, arrives_of_extends leads hs.sound grown⟩
  exact ⟨grown.trans (extends_assert ha),
    trusted_copy unique ready (hmem _ (aliased (e, ref) hm)) leads trusted copied ha⟩

end Component

end ApiGraph
