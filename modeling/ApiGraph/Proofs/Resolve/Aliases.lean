import ApiGraph.Proofs.Components
import ApiGraph.Proofs.Schema.Keyword

/-! The registration of aliases. An alias is resolved into a handle at once and changes nothing; it
waits until its target has a model, and each round through those that wait registers every alias whose
target has one by then. When a round registers none, each component without a model waits for another
one. -/

namespace ApiGraph

open Resolving Registry
open Relation (ReflTransGen)

/-- A model that has all keywords of the node it was made from. -/
def Model.IsEntitled (m : Model) : Prop := ∀ name, entitled m name = { m with name := name }

theorem Model.isEntitled_entitled (m : Model) (name : String) : (entitled m name).IsEntitled := by
  intro other
  obtain ⟨validations, extras⟩ := Schema.nodup_keywords m.source
  have twice (d : Dict String Json) {e : Dict String Json} (hn : (Dict.keys e).Nodup) :
      Dict.merge (Dict.merge d e) e = Dict.merge d e := Dict.merge_merge hn d
  simp only [entitled, twice _ validations, twice _ extras]

theorem Model.IsEntitled.relocated {m : Model} (h : m.IsEntitled) (name : String)
    (location : Option String) : ({ m with name := name, location := location } : Model).IsEntitled :=
  fun other => congrArg (fun k => { k with location := location }) (h other)

namespace Component

variable {document : Json} {e e' last : Entry} {es : List Entry} {p q s : Progress} {r t : Registry}
  {scope : Scope} {text name : String} {m k : Model} {ref : Ref}

/-- The name that is given to a component before anything is resolved. -/
def given (document : Json) (e : Entry) : String := canonical (base document) e

/-- A component refers to another one and stands for it, whatever else it says. -/
def Refers (document : Json) (e e' : Entry) : Prop :=
  e' ∈ listed document ∧ e.node.get? "$ref" = some (.str e'.key)

/-- A component has a reference that leads out of the document. -/
def Leaves (e : Entry) (text : String) : Prop :=
  e.node.get? "$ref" = some (.str text) ∧ Pointer.isLocal text = false

/-- A chain of aliases ends at a component that refers to no other. -/
def IsLast (document : Json) (e : Entry) : Prop := ∀ e', ¬ Refers document e e'

/-- The handle that an alias stands for. -/
inductive Handle (document : Json) (e : Entry) : Ref → Prop
  | component {e' : Entry} (refers : Refers document e e') : Handle document e (.named (given document e'))
  | remote {text : String} (leaves : Leaves e text) : Handle document e (.remote text)

/-- A model under the name and at the place of a component. -/
def Entry.copy (document : Json) (e : Entry) (m : Model) : Model :=
  { m with name := given document e, location := some (e.place (base document)) }

/-- What is registered for a component that leads out of the document: its type is the text of the
reference, and it depends on nothing else. -/
def Entry.placeholder (document : Json) (e : Entry) (text : String) : Model :=
  entitled (e.copy document { Model.blank "" .schema with
    source := e.node
    type := some text
    subtype := .str "object"
    dependencies := [.ref (.remote text)] }) (given document e)

theorem lookup_given (he : e ∈ listed document) :
    (base document).named.lookup e.key = some (given document e) := by
  obtain ⟨name, hn⟩ := base_named he
  rw [given, canonical_of_named hn, hn]

theorem given_injective (unique : Unrepeated document) (he : e ∈ listed document)
    (he' : e' ∈ listed document) (h : given document e = given document e') : e = e' :=
  eq_of_key unique he he' (oneKey_base document (lookup_given he) (h ▸ lookup_given he'))

theorem IsLast.of_plain (plain : e.node.has "$ref" = false) : IsLast document e := by
  intro e' refers
  rw [Json.has, refers.2] at plain
  cases plain

theorem Leaves.not_refers (h : Leaves e text) : ¬ Refers document e e' := by
  intro refers
  obtain rfl := Json.str.inj (Option.some.inj (h.1.symm.trans refers.2))
  cases (isLocal_key e').symm.trans h.2

/-! What an alias is resolved into. -/

/-- A reference that changes nothing is resolved into its handle. -/
theorem resolve_reference (spells : e.node.get? "$ref" = some (.str text))
    (h : ∀ self scope, Runs (resolveReference document self scope e.node) p ref p) :
    Runs (resolve (resolveNode document) scope e) p (.ref ref) p := by
  have refers : e.node.has "$ref" = true := by rw [Json.has, spells]; rfl
  obtain ⟨entries, object⟩ : ∃ entries, e.node = .obj entries := by
    cases hn : e.node with
    | obj entries => exact ⟨entries, rfl⟩
    | _ => rw [hn] at refers; cases refers
  have isObject : e.node.isObject = true := by rw [object]; rfl
  have form (hint : Option Schema.Form) : Schema.formOf e.node hint = .reference := by
    unfold Schema.formOf
    exact if_pos refers
  have node (site : Site) : Runs (resolveNode document site e.node) p ⟨.ref ref, []⟩ p := by
    obtain ⟨depth, hd⟩ : ∃ depth, depthBound document e.node = depth + 1 :=
      Nat.exists_eq_succ_of_ne_zero (by unfold depthBound; simp)
    unfold resolveNode
    rw [hd]
    change Runs (resolveForm document (resolveWithin document depth) site e.node) p _ p
    simp only [resolveForm, form, isObject, Bool.not_true, Bool.false_eq_true, if_false, runs_bind,
      runs_pure]
    exact ⟨ref, p, h _ _, rfl, rfl⟩
  unfold resolve
  simp only [runs_bind, canonicalName]
  refine ⟨_, p, ⟨_, _, runs_registry.2 ⟨rfl, rfl⟩, runs_pure.2 ⟨rfl, rfl⟩⟩, ?_⟩
  rw [object]
  simp only [← object, refers, Bool.not_true, Bool.and_false, Bool.false_eq_true, if_false, runs_bind,
    runs_pure]
  exact ⟨_, p, node _, rfl, rfl⟩

theorem resolve_leaving (leaves : Leaves e text) :
    Runs (resolve (resolveNode document) scope e) p (.ref (.remote text)) p := by
  refine resolve_reference leaves.1 fun self scope => ?_
  unfold resolveReference
  rw [leaves.1]
  simp only [leaves.2, Bool.not_false, if_true]
  exact runs_pure.2 ⟨rfl, rfl⟩

theorem resolve_referring (refers : Refers document e e') (hn : p.registry.named.lookup e'.key = some name) :
    Runs (resolve (resolveNode document) scope e) p (.ref (.named name)) p := by
  refine resolve_reference refers.2 fun self scope => ?_
  unfold resolveReference
  rw [refers.2]
  simp only [isLocal_key, Bool.not_true, Bool.false_eq_true, if_false, runs_bind]
  refine ⟨_, p, runs_registry.2 ⟨rfl, rfl⟩, ?_⟩
  rw [lookupRef, hn]
  exact runs_pure.2 ⟨rfl, rfl⟩

/-! What is registered for components. -/

/-- A component has no model yet. -/
def Waiting (document : Json) (r : Registry) (e : Entry) : Prop :=
  r.models.lookup (given document e) = none

/-- The chain of a component ends at one with a model, of which the component has a copy; a reference
that leads out of the document has its placeholder there. -/
structure Settles (document : Json) (r : Registry) (e last : Entry) (m : Model) : Prop where
  chain : ReflTransGen (Refers document) e last
  ends : IsLast document last
  model : r.models.lookup (given document last) = some m
  entitled : m.IsEntitled
  remote : ∀ text, Leaves last text → m = last.placeholder document text
  copied : e = last ∨ r.models.lookup (given document e) = some (e.copy document m)

/-- Between two registrations, components have the names that were given to them, and those that have
models are settled. -/
structure Standing (document : Json) (r : Registry) : Prop where
  named : ∀ {e}, e ∈ listed document → r.named.lookup e.key = some (given document e)
  unkeyed : ∀ {e}, e ∈ listed document → r.named.lookup (given document e) = none
  settled : ∀ {e}, e ∈ listed document →
    Waiting document r e ∨ ∃ last m, Settles document r e last m

/-- Components keep standing, and none begins to wait. -/
structure Advances (document : Json) (r t : Registry) : Prop where
  standing : Standing document t
  waiting : ∀ {e}, e ∈ listed document → Waiting document t e → Waiting document r e

theorem Standing.refl (h : Standing document r) : Advances document r r := ⟨h, fun _ => id⟩

theorem Advances.trans {u : Registry} (h : Advances document r t) (h' : Advances document t u) :
    Advances document r u :=
  ⟨h'.standing, fun he waits => h.waiting he (h'.waiting he waits)⟩

/-- The model of a component that waits is entered beside those that are there. -/
theorem Standing.enter (unique : Unrepeated document) (h : Standing document r) (he : e ∈ listed document)
    (waits : Waiting document r e)
    (settles : ∃ last k, Settles document (r.enrol (given document e) m).2 e last k) :
    Advances document r (r.enrol (given document e) m).2 := by
  have keeps {name : String} {k : Model} (hk : r.models.lookup name = some k) :
      (r.enrol (given document e) m).2.models.lookup name = some k := lookup_put_new waits hk
  refine ⟨⟨h.named, h.unkeyed, fun {d} hd => ?_⟩, fun {d} hd waits => ?_⟩
  · -- No other component has the name, so that the others are as they were.
    by_cases same : given document d = given document e
    · obtain rfl := given_injective unique hd he same
      exact .inr settles
    · obtain waits | ⟨last, k, s⟩ := h.settled hd
      · exact .inl ((Dict.lookup_put_of_ne _ _ (by simpa using same)).trans waits)
      · exact .inr ⟨last, k, s.chain, s.ends, keeps s.model, s.entitled, s.remote, s.copied.imp_right keeps⟩
  · cases hk : r.models.lookup (given document d) with
    | none => exact hk
    | some k => cases (keeps hk).symm.trans waits

/-- A component that is registered has a model afterwards, whether it waited or not. -/
theorem Standing.assert (h : Standing document r) {raw : Json} (location : String)
    (unique : Unrepeated document) (he : e ∈ listed document) (plain : raw.get? "$ref" = none)
    (settles : Waiting document r e →
      ∃ last k, Settles document (r.enrol (given document e) m).2 e last k) :
    ∃ found t, r.assert raw (.model m) (some e.key) .named location = .ok (found, t) ∧
      Advances document r t ∧ ¬ Waiting document t e := by
  have registers : r.assert raw (.model m) (some e.key) .named location =
      .ok (r.register .named e.key m) := by
    simp only [Registry.assert, plain, keyFor_key]
  have indexed : r.indexed .named e.key = some (given document e) := h.named he
  rw [registers, Registry.register, indexed]
  cases hk : r.models.lookup (given document e) with
  | none =>
    simp only [hk]
    refine ⟨_, _, rfl, h.enter unique he hk (settles hk), fun waits => ?_⟩
    cases (Dict.lookup_put_self r.models (given document e) _).symm.trans waits
  | some k =>
    simp only [hk]
    exact ⟨_, _, rfl, h.refl, fun waits => by cases hk.symm.trans waits⟩

/-- A component without a reference is the last of its chain. -/
theorem register_run (unique : Unrepeated document) (h : Standing document p.registry)
    (he : e ∈ listed document) (plain : e.node.has "$ref" = false) :
    ∃ q, Runs (register (e, .model m)) p () q ∧ Advances document p.registry q.registry ∧
      ¬ Waiting document q.registry e := by
  have spells : e.node.get? "$ref" = none := by simpa [Json.has] using plain
  obtain ⟨found, t, ha, advances, settled⟩ := h.assert (m := m) (m.location.getD "") unique he
    spells fun _ => ⟨e, _, .refl, .of_plain plain, Dict.lookup_put_self _ _ _,
      m.isEntitled_entitled _, (fun text leaves => by cases spells.symm.trans leaves.1), .inl rfl⟩
  refine ⟨{ p with registry := t }, ?_, advances, settled⟩
  simp only [register, runs_bind, runs_assert, runs_pure]
  exact ⟨found, _, ⟨t, ha, rfl⟩, trivial, rfl⟩

/-- All components that are no aliases are registered. -/
theorem register_forM_run (unique : Unrepeated document) {resolved : List (Entry × Link Model)}
    (mem : ∀ x ∈ resolved, x.1 ∈ listed document)
    (plain : ∀ e m, (e, Link.model m) ∈ resolved → e.node.has "$ref" = false)
    (h : Standing document p.registry) :
    ∃ q, Runs (resolved.forM register) p () q ∧ Advances document p.registry q.registry ∧
      ∀ e m, (e, Link.model m) ∈ resolved → ¬ Waiting document q.registry e := by
  induction resolved generalizing p with
  | nil => exact ⟨p, rfl, h.refl, by simp⟩
  | cons x rest ih =>
    obtain ⟨e, link⟩ := x
    have he : e ∈ listed document := mem _ List.mem_cons_self
    obtain ⟨s, first, here, done⟩ : ∃ s, Runs (register (e, link)) p () s ∧
        Advances document p.registry s.registry ∧ ∀ m, link = .model m → ¬ Waiting document s.registry e := by
      cases link with
      | ref ref => exact ⟨p, rfl, h.refl, nofun⟩
      | model m =>
        obtain ⟨s, first, here, done⟩ := register_run unique h he (plain e m List.mem_cons_self)
        exact ⟨s, first, here, fun _ _ => done⟩
    obtain ⟨q, more, there, others⟩ := ih (fun x hx => mem x (List.mem_cons_of_mem _ hx))
      (fun e m hm => plain e m (List.mem_cons_of_mem _ hm)) here.standing
    refine ⟨q, (first.run_bind fun _ => rest.forM register).trans more, here.trans there, ?_⟩
    intro d m hm waits
    obtain ⟨rfl, same⟩ | hm := (List.mem_cons.1 hm).imp_left Prod.mk.inj
    · exact done m same.symm (there.waiting he waits)
    · exact others d m hm waits

/-! The rounds through the aliases. -/

/-- An alias waits as long as its target does. Otherwise it gets the copy that its target has, or
is. -/
theorem registerAlias_run (unique : Unrepeated document) (h : Standing document p.registry)
    (he : e ∈ listed document) (handle : Handle document e ref) :
    (∃ e', Refers document e e' ∧ ref = .named (given document e') ∧
      Waiting document p.registry e' ∧ Runs (registerAlias e ref) p false p) ∨
    ∃ q, Runs (registerAlias e ref) p true q ∧ Advances document p.registry q.registry ∧
      ¬ Waiting document q.registry e := by
  have name : canonical p.registry e = given document e := canonical_of_named (h.named he)
  have place : e.place p.registry = e.place (base document) := by rw [Entry.place, name]; rfl
  have enters {m : Model}
      (hm : aliasModel p.registry e (given document e) (e.place (base document)) ref = some m)
      (settles : Waiting document p.registry e →
        ∃ last k, Settles document (p.registry.enrol (given document e) m).2 e last k) :
      ∃ q, Runs (registerAlias e ref) p true q ∧ Advances document p.registry q.registry ∧
        ¬ Waiting document q.registry e := by
    obtain ⟨found, t, ha, advances, settled⟩ := h.assert (r := p.registry) (e.place (base document)) unique he
      (show Json.null.get? "$ref" = none from rfl) settles
    refine ⟨{ p with registry := t }, runs_registerAlias.2 ?_, advances, settled⟩
    rw [name, place, hm]
    exact ⟨found, t, ha, rfl, rfl⟩
  cases handle with
  | @component e' refers =>
    obtain waits | ⟨last, m, s⟩ := h.settled refers.1
    · have none : aliasModel p.registry e (given document e) (e.place (base document))
          (.named (given document e')) = none := by
        have absent : p.registry.contains (given document e') = false := contains_eq_false_iff.2 waits
        have model : p.registry.models.lookup (given document e') = none := waits
        simp [aliasModel, Ref.isRemote, Ref.named, Registry.resolve, absent, h.unkeyed refers.1, model]
      refine .inl ⟨e', refers, rfl, waits, runs_registerAlias.2 ?_⟩
      rw [name, place, none]
      exact ⟨rfl, rfl⟩
    · right
      -- The target may be a copy itself; a copy of it differs from it where it differs from the model.
      obtain ⟨k, hk, copy⟩ : ∃ k, p.registry.models.lookup (given document e') = some k ∧
          e.copy document k = e.copy document m := by
        obtain rfl | copied := s.copied
        · exact ⟨m, s.model, rfl⟩
        · exact ⟨_, copied, rfl⟩
      refine enters (m := e.copy document k) ?_ fun waits => ?_
      · have present : p.registry.contains (given document e') = true := contains_iff.2 ⟨k, hk⟩
        simp [aliasModel, Ref.isRemote, Ref.named, Registry.resolve, present, hk, Entry.copy]
      · refine ⟨last, m, .head refers s.chain, s.ends, lookup_put_new waits s.model, s.entitled, s.remote,
          .inr ?_⟩
        have kept : entitled (e.copy document m) (given document e) = e.copy document m :=
          s.entitled.relocated _ _ _
        rw [copy]
        exact (Dict.lookup_put_self _ _ _).trans (congrArg some kept)
  | @remote text leaves =>
    refine .inr (enters rfl fun waits => ⟨e, _, .refl, fun _ => leaves.not_refers, Dict.lookup_put_self _ _ _,
      Model.isEntitled_entitled _ _, fun other leaves' => ?_, .inl rfl⟩)
    obtain rfl := Json.str.inj (Option.some.inj (leaves.1.symm.trans leaves'.1))
    rfl

/-- Aliases of a document, each with the handle that it stands for. -/
def Pending (document : Json) (pending : List (Entry × Ref)) : Prop :=
  ∀ x ∈ pending, x.1 ∈ listed document ∧ Handle document x.1 x.2

/-- A round that keeps all aliases found that each of them has a target that waits. -/
theorem aliasRound_run (unique : Unrepeated document) {pending : List (Entry × Ref)}
    (known : Pending document pending) (h : Standing document p.registry) :
    ∃ kept q, Runs (aliasRound pending) p kept q ∧ Advances document p.registry q.registry ∧
      kept.Sublist pending ∧ (∀ x ∈ pending, x ∈ kept ∨ ¬ Waiting document q.registry x.1) ∧
      (kept.length = pending.length → q = p ∧ ∀ x ∈ pending, ∃ e', Refers document x.1 e' ∧
        x.2 = .named (given document e') ∧ Waiting document p.registry e') := by
  induction pending generalizing p with
  | nil => exact ⟨[], p, rfl, h.refl, .slnil, by simp, by simp⟩
  | cons x rest ih =>
    obtain ⟨e, ref⟩ := x
    obtain ⟨⟨he, handle⟩, others⟩ := List.forall_mem_cons.1 known
    obtain ⟨e', refers, target, waits, stays⟩ | ⟨s, enters, here, done⟩ :=
      registerAlias_run unique h he handle
    · obtain ⟨kept, q, run, advances, sub, settled, stuck⟩ := ih others h
      refine ⟨(e, ref) :: kept, q, ?_, advances, sub.cons_cons _, ?_, fun all => ?_⟩
      · unfold aliasRound
        simp only [runs_bind, runs_ite]
        exact ⟨false, p, stays, kept, q, run, rfl⟩
      · intro x hx
        obtain rfl | hx := List.mem_cons.1 hx
        · exact .inl List.mem_cons_self
        · exact (settled x hx).imp_left (List.mem_cons_of_mem _)
      · obtain ⟨rfl, blocked⟩ := stuck (Nat.succ.inj all)
        exact ⟨rfl, List.forall_mem_cons.2 ⟨⟨e', refers, target, waits⟩, blocked⟩⟩
    · obtain ⟨kept, q, run, advances, sub, settled, -⟩ := ih others here.standing
      refine ⟨kept, q, ?_, here.trans advances, sub.cons _, ?_, fun all => ?_⟩
      · unfold aliasRound
        simp only [runs_bind, runs_ite]
        exact ⟨true, s, enters, run⟩
      · intro x hx
        obtain rfl | hx := List.mem_cons.1 hx
        · exact .inr fun waits => done (advances.waiting he waits)
        · exact settled x hx
      · have := sub.length_le
        rw [List.length_cons] at all
        omega

/-- In a state that cannot be left each component that waits does so for another one that waits. -/
def Stuck (document : Json) (r : Registry) : Prop :=
  ∀ e ∈ listed document, Waiting document r e → ∃ e', Refers document e e' ∧ Waiting document r e'

/-- The rounds settle all components, or come to a state that cannot be left and say so. -/
theorem registerAliases_run (unique : Unrepeated document) {rounds : Nat} {pending : List (Entry × Ref)}
    (enough : pending.length ≤ rounds) (known : Pending document pending)
    (all : ∀ e ∈ listed document, Waiting document p.registry e → ∃ ref, (e, ref) ∈ pending)
    (h : Standing document p.registry) :
    ∃ q, Standing document q.registry ∧
      (Runs (registerAliases rounds pending) p () q ∧
          (∀ e ∈ listed document, ¬ Waiting document q.registry e) ∨
        Stuck document q.registry ∧ ∃ e e', e ∈ listed document ∧ Refers document e e' ∧
          Waiting document q.registry e' ∧ (registerAliases rounds pending).run.run p =
            (.error (.missingReference (given document e') e.key), q)) := by
  induction rounds generalizing p pending with
  | zero =>
    obtain rfl := List.eq_nil_of_length_eq_zero (Nat.le_zero.1 enough)
    exact ⟨p, h, .inl ⟨rfl, fun e he waits => by simpa using all e he waits⟩⟩
  | succ rounds ih =>
    cases pending with
    | nil => exact ⟨p, h, .inl ⟨rfl, fun e he waits => by simpa using all e he waits⟩⟩
    | cons pair rest =>
      obtain ⟨kept, s, run, advances, sub, settled, stuck⟩ := aliasRound_run unique known h
      have all' : ∀ e ∈ listed document, Waiting document s.registry e → ∃ ref, (e, ref) ∈ kept := by
        intro e he waits
        obtain ⟨ref, hm⟩ := all e he (advances.waiting he waits)
        exact ⟨ref, (settled _ hm).resolve_right fun done => done waits⟩
      simp only [registerAliases, run.run_bind, Runs]
      cases kept with
      | nil => exact ⟨s, advances.standing, .inl ⟨rfl, fun e he waits => by simpa using all' e he waits⟩⟩
      | cons first others =>
        obtain ⟨e, ref⟩ := first
        dsimp only
        split
        · next same =>
          -- All aliases were kept, so that nothing has changed.
          obtain ⟨rfl, blocked⟩ := stuck same
          have mem : ∀ x ∈ (e, ref) :: others, x ∈ pair :: rest := fun x hx => sub.subset hx
          obtain ⟨e', refers, rfl, waits⟩ := blocked _ (mem _ List.mem_cons_self)
          refine ⟨s, h, .inr ⟨fun d hd waits => ?_, e, e',
            (known _ (mem _ List.mem_cons_self)).1, refers, waits, rfl⟩⟩
          obtain ⟨ref, hm⟩ := all d hd waits
          obtain ⟨d', refers, -, waits⟩ := blocked _ hm
          exact ⟨d', refers, waits⟩
        · next other =>
          have fewer := sub.length_le
          simp only [List.length_cons] at fewer enough other
          exact ih (by rw [List.length_cons]; omega) (fun x hx => known x (sub.subset hx)) all'
            advances.standing

/-! The components of a document. -/

/-- What is asked of the components of a document: their names are none that a key could be, each
reference leads to a component or out of the document, and the components without a reference are
resolved. -/
structure Proper (document : Json) (scope : Scope) (p : Progress) : Prop where
  declares : Runs (declared document) p (listed document) p
  unrepeated : Unrepeated document
  plain : ∀ e ∈ listed document, e.name ≠ "" ∧ e.name.toList.head? ≠ some '#'
  refers : ∀ e ∈ listed document, e.node.has "$ref" = true →
    (∃ e', Refers document e e') ∨ ∃ text, Leaves e text
  rest : ∃ models q, Runs (resolveEach (resolveNode document) scope
    ((listed document).filter fun e => !e.node.has "$ref")) { p with registry := base document } models q

/-- Aliases do not get in the way of the other components. -/
theorem resolveEach_interleaved (mem : es ⊆ listed document)
    (refers : ∀ e ∈ es, e.node.has "$ref" = true → (∃ e', Refers document e e') ∨ ∃ text, Leaves e text)
    (ready : Ready document (listed document) p.registry)
    (grown : Grows (fun _ => False) (base document) p.registry) {models : List (Entry × Link Model)}
    (rest : Runs (resolveEach (resolveNode document) scope (es.filter fun e => !e.node.has "$ref"))
      p models q) :
    ∃ resolved, Runs (resolveEach (resolveNode document) scope es) p resolved q ∧
      ∀ e ref, (e, Link.ref ref) ∈ resolved → e.node.has "$ref" = true → Handle document e ref := by
  -- The two runs are in the same state before each component that is no alias.
  induction es generalizing p models with
  | nil =>
    obtain ⟨-, rfl⟩ := runs_pure.1 rest
    exact ⟨[], rfl, by simp⟩
  | cons e es ih =>
    obtain ⟨he, mem⟩ := List.cons_subset.1 mem
    obtain ⟨here, refers⟩ := List.forall_mem_cons.1 refers
    rw [List.filter_cons] at rest
    cases isRef : e.node.has "$ref" with
    | true =>
      simp only [isRef, Bool.not_true, Bool.false_eq_true, if_false] at rest
      obtain ⟨ref, run, handle⟩ : ∃ ref, Runs (resolve (resolveNode document) scope e) p (.ref ref) p ∧
          Handle document e ref := by
        obtain ⟨e', refers⟩ | ⟨text, leaves⟩ := here isRef
        · exact ⟨_, resolve_referring refers (grown.name id (lookup_given refers.1)), .component refers⟩
        · exact ⟨_, resolve_leaving leaves, .remote leaves⟩
      obtain ⟨resolved, more, handles⟩ := ih mem refers ready grown rest
      refine ⟨(e, .ref ref) :: resolved, ?_, fun d other hd isRef => ?_⟩
      · simp only [resolveEach, runs_bind, runs_pure]
        exact ⟨_, p, run, resolved, q, more, rfl, rfl⟩
      · obtain same | hd := List.mem_cons.1 hd
        · obtain ⟨rfl, link⟩ := Prod.mk.inj same
          exact Link.ref.inj link ▸ handle
        · exact handles d other hd isRef
    | false =>
      simp only [isRef, Bool.not_false, if_true] at rest
      obtain ⟨link, _, s, run, others, rfl⟩ := resolveEach_runs rest
      have here := ready.sub (List.cons_subset.2 ⟨he, mem⟩)
      have x := Traversal.resolveComponent (T := extension document (Undeclared document)) here.settled
        here.titled run
      obtain ⟨resolved, more, handles⟩ := ih mem refers (ready.extend x)
        (grown.trans (x ready.sound).2.of_new) others
      refine ⟨(e, link) :: resolved, ?_, fun d other hd isRef' => ?_⟩
      · simp only [resolveEach, runs_bind, runs_pure]
        exact ⟨_, s, run, resolved, q, more, rfl, rfl⟩
      · obtain same | hd := List.mem_cons.1 hd
        · obtain ⟨rfl, -⟩ := Prod.mk.inj same
          cases isRef.symm.trans isRef'
        · exact handles d other hd isRef'

/-- A component is given a name that begins with its own. -/
theorem prefix_given (he : e ∈ listed document) : e.name.toList <+: (given document e).toList := by
  have all {r : Registry} (h : ∀ {e : Entry} {name : String}, r.named.lookup e.key = some name →
        e.name.toList <+: name.toList) (es : List Entry) {e : Entry} {name : String}
      (hn : (es.foldl reserved r).named.lookup e.key = some name) : e.name.toList <+: name.toList := by
    induction es generalizing r with
    | nil => exact h hn
    | cons d es ih =>
      refine ih (r := reserved r d) (fun {e name} hn => ?_) hn
      cases known : r.named.lookup d.key with
      | some other =>
        rw [reserved, Registry.reserve, known] at hn
        exact h hn
      | none =>
        rw [reserved, reserve_new known] at hn
        obtain ⟨same, rfl⟩ | old := lookup_put_cases hn
        · have begins : d.name.toList <+: (wanted r d).toList := by
            unfold wanted
            split
            · exact String.toList_append ▸ List.prefix_append _ _
            · exact List.prefix_refl _
          rw [(Pointer.component_injective same).2]
          exact begins.trans (prefix_freeVariant _ _)
        · exact h old
  exact all (fun hn => by cases hn) _ (lookup_given he)

/-- No key could be the name of a component. -/
theorem Proper.head_given (proper : Proper document scope p) (he : e ∈ listed document) :
    (given document e).toList.head? ≠ some '#' := by
  obtain ⟨nonempty, plain⟩ := proper.plain e he
  obtain ⟨tail, ht⟩ := prefix_given he
  rw [← ht, List.head?_append_of_ne_nil _ (by simpa using nonempty)]
  exact plain

/-- After the components were resolved, all of them wait. -/
theorem Proper.standing {resolved : List (Entry × Link Model)} (proper : Proper document scope p)
    (h : Runs (resolveEach (resolveNode document) scope (listed document))
      { p with registry := base document } resolved q) :
    Standing document q.registry := by
  obtain ⟨traversed, -, -⟩ := resolveEach_traversed (distinction document) (base_ready document) h
  have sound := (base_ready document).sound
  have grown : Grows (fun _ => False) (base document) q.registry := (traversed.1 sound).2.of_new
  have distinct := (traversed.2 sound nofun).1 _ _ (distinct_base document)
  refine ⟨fun he => grown.name id (lookup_given he), fun {e} he => ?_, fun {e} he => .inl ?_⟩
  · rw [(silent_resolveEach (silent_resolveNode document) h).outside _ (proper.head_given he)]
    cases hn : (base document).named.lookup (given document e) with
    | none => rfl
    | some name =>
      obtain ⟨d, -, key⟩ := key_of_base hn
      exact absurd (key ▸ head_key d) (proper.head_given he)
  · have pending : Outstanding document (base document) (given document e) :=
      ⟨e, he, lookup_given he, by simp [contains, base_models, Dict.has]⟩
    exact distinct.lookup_pending (traversed.1 sound).1.1 pending

/-- Components are collected and then all settled, or else the collection ends in a state that cannot
be left, and says so. -/
theorem collect_run (named : scope.space = .named) (fresh : p.registry = .empty)
    (proper : Proper document scope p) :
    ∃ q, Standing document q.registry ∧
      (Runs (collect document (resolveNode document) scope) p () q ∧
          (∀ e ∈ listed document, ¬ Waiting document q.registry e) ∨
        Stuck document q.registry ∧ ∃ e e', e ∈ listed document ∧ Refers document e e' ∧
          Waiting document q.registry e' ∧ (collect document (resolveNode document) scope).run.run p =
            (.error (.missingReference (given document e') e.key), q)) := by
  obtain ⟨models, s, rest⟩ := proper.rest
  obtain ⟨resolved, resolves, handles⟩ := resolveEach_interleaved (List.Subset.refl _) proper.refers
    (base_ready document) (.refl _) rest
  obtain ⟨-, fsts, results⟩ := resolveEach_traversed (extension document (Undeclared document))
    (base_ready document) resolves
  have mem : ∀ x ∈ resolved, x.1 ∈ listed document := fun x hx => fsts ▸ List.mem_map_of_mem hx
  obtain ⟨t, registers, advances, done⟩ := register_forM_run proper.unrepeated mem
    (fun e m hm => (results _ hm).plain) (proper.standing resolves)
  have known : Pending document (aliases resolved) := by
    intro x hx
    have hm := mem_aliases hx
    exact ⟨mem _ hm, handles _ _ hm (named ▸ results _ hm).isRef⟩
  have all : ∀ e ∈ listed document, Waiting document t.registry e → ∃ ref, (e, ref) ∈ aliases resolved := by
    intro e he waits
    obtain ⟨⟨e, link⟩, hm, rfl⟩ := List.mem_map.1 (fsts ▸ he)
    cases link with
    | model m => exact absurd waits (done e m hm)
    | ref ref => exact ⟨ref, List.mem_filterMap.2 ⟨_, hm, rfl⟩⟩
  have run : (collect document (resolveNode document) scope).run.run p =
      (registerAliases (aliases resolved).length (aliases resolved)).run.run t := by
    have reserves : Runs ((listed document).forM reserve) p () { p with registry := base document } := by
      rw [Runs, reserve_forM_run, fresh]
      rfl
    unfold collect
    rw [proper.declares.run_bind, reserves.run_bind, resolves.run_bind, registers.run_bind]
  unfold Runs
  rw [run]
  exact registerAliases_run proper.unrepeated le_rfl known all advances.standing

end Component

end ApiGraph
