import ApiGraph.Proofs.Dereference
import ApiGraph.Proofs.Graph

/-! The operations of an accepted document. Each was resolved in one run, which lies between the
collection of components and the registry that the document leaves, so that whatever runs hand on
holds where it began. -/

namespace ApiGraph

open Resolving Registry

variable {document : Json} {p q s : Progress} {α : Type}

/-- There are only runs of the resolution between two states. -/
def Progress.Leads (document : Json) (p q : Progress) : Prop :=
  ∀ T : Traversal document, T.Reaches p.registry q.registry

namespace Progress.Leads

theorem refl (p : Progress) : p.Leads document p := fun _ => .refl _

theorem trans (h : p.Leads document s) (h' : s.Leads document q) : p.Leads document q :=
  fun T => (h T).trans (h' T)

theorem of_eq (h : q.registry = p.registry) : p.Leads document q := fun _ => h ▸ .refl _

theorem grown (h : p.Leads document q) (R : String → Prop) :
    p.registry.Extends R q.registry := by
  obtain ⟨_, left⟩ := h (extension document R)
  exact left

end Progress.Leads

namespace Resolving

/-- Steps that are runs of the resolution lead from each state to the next. -/
theorem Chain.leads {step : α → Progress → Progress → Prop} {as : List α}
    (one : ∀ a p q, step a p q → p.Leads document q) (h : Chain step as p q) :
    p.Leads document q := by
  induction h with
  | nil => exact .refl _
  | cons first _ ih => exact (one _ _ _ first).trans ih

/-- A step of a chain lies between its ends. -/
theorem Chain.between {step : α → Progress → Progress → Prop} {as : List α} {a : α}
    (one : ∀ a p q, step a p q → p.Leads document q) (h : Chain step as p q) (ha : a ∈ as) :
    ∃ s t, p.Leads document s ∧ step a s t ∧ t.Leads document q := by
  induction h with
  | nil => cases ha
  | cons first rest ih =>
    rcases List.mem_cons.1 ha with rfl | ha
    · exact ⟨_, _, .refl _, first, rest.leads one⟩
    · obtain ⟨s, t, before, step, after⟩ := ih ha
      exact ⟨s, t, (one _ _ _ first).trans before, step, after⟩

end Resolving

theorem Stop.Made.leads {name : String} {item : Json} {stop : Stop}
    (h : stop.Made document name item p q) : p.Leads document q := by
  obtain ⟨⟨scope, s, run, rfl⟩, -⟩ := h
  intro T
  have left : T.Leaves p.registry stop.method.refs s.registry := Traversal.resolveMethod run
  exact ⟨_, left⟩

theorem Visit.Made.leads {v : Visit} (h : v.Made document p q) : p.Leads document q := by
  obtain ⟨-, -, -, -, -, -, s, chain, rfl⟩ := h
  have all : p.Leads document s := chain.leads fun _ _ _ => Stop.Made.leads
  exact all.trans (.of_eq rfl)

/-- A state between the collection of the components of a document and a registry that the document
leaves. -/
structure Midway (document : Json) (final : Registry) (p : Progress) : Prop where
  collected : ∃ s, Runs (Component.collect document (resolveNode document)
    (Scope.root.phase .named)) .start () s ∧ s.Leads document p
  after : ∀ R : String → Prop, p.registry.Extends R final

namespace Midway

variable {final : Registry}

theorem leads (h : Midway document final p) (first : p.Leads document q)
    (after : ∀ R : String → Prop, q.registry.Extends R final) : Midway document final q := by
  obtain ⟨s, run, before⟩ := h.collected
  exact ⟨⟨s, run, before.trans first⟩, after⟩

/-- The tables agree, and all components have names. -/
theorem ready (h : Midway document final p) :
    Component.Ready document (Component.listed document) p.registry := by
  obtain ⟨s, run, before⟩ := h.collected
  exact (Component.collect_collected rfl run).ready.extend (before.grown _)

/-- What is registered is there in the end. -/
theorem grows (h : Midway document final p) : Grows (fun _ => False) p.registry final :=
  (h.after _ h.ready.sound).2.of_new

/-- Where no name reads as a reference, the tables agree with the document. -/
theorem faithful (h : Midway document final p) (unique : Component.Unrepeated document)
    (clean : ∀ name, final.contains name = true → Pointer.isLocal name = false) :
    p.registry.Clean document ∧ p.registry.Faithful document := by
  obtain ⟨s, run, before⟩ := h.collected
  have collected := Component.collect_collected rfl run
  obtain ⟨_, grown⟩ : (fidelity document).Reaches s.registry p.registry := before _
  have here : p.registry.Clean document :=
    clean_of_models collected grown.1 fun name hn => clean name (h.grows.contains hn)
  exact ⟨here, grown.2 collected.ready.sound (Component.collect_trusted unique rfl rfl run) here⟩

end Midway

section

variable {node v w : Json} {r : Registry} {refs : List String} {final : Registry}

/-- What a node stands for does not depend on the place that a failure would be told of. -/
theorem followChain_of_stands (h : Stands document r node w) (location : String) :
    followChain document r location (document.size + 2) node = .ok w := by
  obtain ⟨place, h⟩ := h
  generalize document.size + 2 = fuel at h ⊢
  induction fuel generalizing node with
  | zero => cases h
  | succ fuel ih =>
    unfold followChain at h ⊢
    repeat' split at h
    all_goals simp_all

/-- Where the tables agree with the document, a node stands for what its chase finds, up to the order
of keys. -/
theorem Stands.alike (h : Stands document r node w) (faithful : r.Faithful document)
    (clean : r.Clean document) (chase : Chase document node refs (.found v))
    (headerless : Component.Headerless document refs) : Json.Alike w v := by
  have agrees : Ending.Agrees "" (.found v) (followChain document r "" (document.size + 2) node) :=
    followChain_agrees faithful clean chase headerless nofun (Nat.lt_succ_of_le chase.length_le)
  obtain ⟨found, hw, -, -, same⟩ := agrees
  rw [followChain_of_stands h] at hw
  cases hw
  exact same

/-- A node without a reference stands for itself. -/
theorem Stands.of_plain (h : Stands document r node w) (chase : Chase document node [] (.found v)) :
    w = v := by
  cases chase with
  | found object plain =>
    have itself := followChain_of_stands h ""
    simp only [followChain, object, plain] at itself
    cases itself
    rfl

/-- What a node stands for is what its chase finds, or what a registered model was made from. -/
theorem Stands.found_or_source (h : Stands document r node w)
    (chase : Chase document node refs (.found v)) :
    w = v ∨ ∃ name m, r.models.lookup name = some m ∧ m.source = w := by
  obtain ⟨place, h⟩ := h
  generalize document.size + 2 = fuel at h
  generalize he : Ending.found v = ending at chase
  induction chase generalizing fuel with
  | found object plain =>
    cases he
    cases fuel with
    | zero => cases h
    | succ fuel =>
      simp only [followChain, object, plain] at h
      cases h
      exact .inl rfl
  | foreign _ => cases he
  | missing _ _ => cases he
  | @next node target text refs ending spells leads rest ih =>
    cases fuel with
    | zero => cases h
    | succ fuel =>
      have object := Json.isObject_of_get? spells
      have here := Pointer.isLocal_of_resolve leads
      simp only [followChain, object, spells, here, leads] at h
      cases hf : registeredNode r text with
      | none =>
        rw [hf] at h
        exact ih fuel h he
      | some known =>
        rw [hf] at h
        cases h
        obtain ⟨found, hr, hm⟩ := Option.bind_eq_some_iff.1 hf
        obtain ⟨m, hm, hs⟩ := Option.bind_eq_some_iff.1 hm
        obtain ⟨name, known, rfl, registered⟩ := resolve_found hr
        obtain rfl : known = m := Option.some.inj hm
        refine .inr ⟨name, known, registered, ?_⟩
        split at hs
        · exact Option.some.inj hs
        · cases hs

/-- A reference to a component stands for its node, unless that is a reference itself. -/
theorem Stands.component {e : Component.Entry} (h : Stands document p.registry node w)
    (mid : Midway document final p) (unique : Component.Unrepeated document)
    (clean : p.registry.Clean document) (he : e ∈ Component.listed document)
    (group : e.group.key ≠ "headers") (chase : Chase document node [e.key] (.found v)) : w = v := by
  cases chase with
  | next spells leads rest =>
    have here := Pointer.isLocal_of_resolve leads
    rw [Component.resolve_key unique he] at leads
    cases leads
    cases rest with
    | found object plain =>
      obtain ⟨s, run, before⟩ := mid.collected
      have ready := (Component.collect_collected rfl run).ready
      have grown : Grows (fun _ => False) s.registry p.registry :=
        ((before.grown _) ready.sound).2.of_new
      obtain ⟨name, hn⟩ := ready.named e he
      obtain ⟨m, hm⟩ := contains_iff.1 ((Component.collect_collected rfl run).model he hn)
      have source : m.source = e.node := by
        have made := Component.sourced_collect unique rfl rfl run he (by simp [Json.has, plain]) hn hm
        rwa [Component.Entry.source_of_ne fun _ _ => group] at made
      have absent : p.registry.contains e.key = false := by
        by_contra hc
        rw [clean.model (by simpa using hc)] at here
        cases here
      have known : registeredNode p.registry e.key = some e.node := by
        simp [registeredNode, Registry.resolve, absent, grown.name id hn, grown.lookup hm, source,
          object]
      have itself := followChain_of_stands h ""
      simp only [followChain, Json.isObject_of_get? spells, spells, here, known] at itself
      cases itself
      rfl

/-- What a node was taken for is what its chase finds. A reference is taken for what its chase finds up
to the order of keys, as long as no name of a model reads as a reference; and in the same order if
it refers to a component, or if no model was made from the same keys in another order. -/
structure Answered (document : Json) (final : Registry) (node w : Json) : Prop where
  plain : ∀ v, Chase document node [] (.found v) → w = v
  found : Component.Unrepeated document →
    (∀ name, final.contains name = true → Pointer.isLocal name = false) →
    ∀ refs v, Chase document node refs (.found v) → Component.Headerless document refs →
      Json.Alike w v ∧ ((∃ e ∈ Component.listed document, refs = [e.key]) ∨
        (∀ name m, final.models.lookup name = some m → Json.Alike m.source v → m.source = v) →
        w = v)

theorem Stands.answered (h : Stands document p.registry node w) (mid : Midway document final p) :
    Answered document final node w := by
  refine ⟨fun v => h.of_plain, fun unique names refs v chase headerless => ?_⟩
  obtain ⟨clean, faithful⟩ := mid.faithful unique names
  have same := h.alike faithful clean chase headerless
  refine ⟨same, ?_⟩
  rintro (⟨e, he, rfl⟩ | ordered)
  · exact h.component mid unique clean he (headerless e he List.mem_cons_self) chase
  · obtain rfl | ⟨name, m, hm, rfl⟩ := h.found_or_source chase
    · rfl
    · exact ordered name m (mid.grows.lookup hm) same

end

namespace Graph.Account

variable {τ : Type} {g' : Graph τ} {visits : List Visit}

/-- The end of the collection of components lies before the paths. -/
theorem collected (h : Graph.Account document g' visits) :
    ∃ s, Runs (Component.collect document (resolveNode document) (Scope.root.phase .named)) .start () s ∧
      Midway document g'.registry s := by
  obtain ⟨s, t, collected, chain, hr⟩ := h.run
  exact ⟨s, collected, ⟨s, collected, .refl _⟩,
    fun R => hr ▸ (chain.leads fun _ _ _ => Visit.Made.leads).grown R⟩

/-- A path was visited between the collection of components and the end. -/
theorem item (h : Graph.Account document g' visits) {v : Visit} (hv : v ∈ visits) :
    Answered document g'.registry v.entry.2 v.item := by
  obtain ⟨s, t, collected, chain, hr⟩ := h.run
  obtain ⟨p, q, before, visited, after⟩ := chain.between (fun _ _ _ => Visit.Made.leads) hv
  have mid : Midway document g'.registry p :=
    ⟨⟨s, collected, before⟩, fun R => hr ▸ (visited.leads.trans after).grown R⟩
  exact visited.1.answered mid

/-- An operation of a path was resolved in a run that lies between the collection of components and
the end. -/
theorem operation (h : Graph.Account document g' visits) {v : Visit} (hv : v ∈ visits) {stop : Stop}
    (hs : stop ∈ v.stops) : ∃ scope p q, Midway document g'.registry p ∧
      Runs (Method.resolve document (resolveNode document) scope stop.method.verb v.entry.1 v.item
        (v.item.get stop.method.verb.word)) p stop.method q ∧
      ∀ R : String → Prop, q.registry.Extends R g'.registry := by
  obtain ⟨s, t, collected, chain, hr⟩ := h.run
  obtain ⟨p, q, before, visited, after⟩ := chain.between (fun _ _ _ => Visit.Made.leads) hv
  obtain ⟨-, -, -, -, -, -, u, stops, rfl⟩ := visited
  obtain ⟨p', q', first, made, rest⟩ := stops.between (fun _ _ _ => Stop.Made.leads) hs
  have last : q'.Leads document t := rest.trans ((Progress.Leads.of_eq rfl).trans after)
  have ending : ∀ R : String → Prop, q'.registry.Extends R g'.registry :=
    fun R => hr ▸ last.grown R
  have whole := made.leads
  obtain ⟨⟨scope, w, run, rfl⟩, -⟩ := made
  exact ⟨scope, p', w, ⟨⟨s, collected, before.trans first⟩,
    fun R => (whole.grown R).trans (ending R)⟩, run, ending⟩

end Graph.Account

end ApiGraph
