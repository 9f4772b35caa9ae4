import ApiGraph.Proofs.Closure
import ApiGraph.Proofs.Graph

/-! The handles of an accepted document. Each leads to a registered model, but for those whose name
was given up after they had been handed out. -/

namespace ApiGraph

open Resolving Registry

/-- What an entity depends on, the models that it embeds included. -/
def Entity.links : Entity → List (Link Model)
  | .method m => m.refs.map .ref
  | .path _ => []
  | .model m => m.inner
  | .ref r => [.ref r]

/-- A handle stands somewhere in a snapshot: in a registered model or in an entity, at any depth. -/
def Snapshot.Mentions (s : Snapshot) (ref : Ref) : Prop :=
  (∃ x ∈ s.models, (Link.ref ref).Within x.2.inner) ∨
    ∃ k, ∃ e ∈ s.get k, (Link.ref ref).Within e.links

/-- A name that was given up and that no model got. -/
def Orphaned (document : Json) (r : Registry) (name : String) : Prop :=
  Forsaken document r name ∧ r.contains name = false

variable {document : Json} {p q : Progress} {scope : Scope} {τ : Type} {g g' : Graph τ}

/-- The names that are reserved for the components of a document. -/
def Awaited (document : Json) (name : String) : Prop :=
  ∃ e ∈ Component.listed document, (Component.base document).named.lookup e.key = some name

/-- The handles in the model of an alias lead somewhere when those in registered models do. -/
theorem AllKept.aliasModel {pending : String → Prop} {r : Registry} {e : Component.Entry}
    {name location : String} {ref : Ref} {m : Model} (hc : Closed document pending r)
    (h : Component.aliasModel r e name location ref = some m) :
    AllKept document pending r m.inner := by
  obtain ⟨remote, rfl⟩ | ⟨known, k, hk, rfl⟩ := Component.aliasModel_cases h
  · exact AllKept.handle fun inside => by rw [remote] at inside; cases inside
  · have hk : AllKept document pending r k.inner := hc.models (Dict.mem_of_lookup hk)
    exact hk

theorem closed_base (document : Json) :
    Closed document (Awaited document) (Component.base document) := by
  refine ⟨fun hk => Or.inr (Or.inl ?_), fun hm => ?_⟩
  · obtain ⟨e, he, rfl⟩ := Component.key_of_base hk
    exact ⟨e, he, hk⟩
  · rw [Component.base_models] at hm
    cases hm

/-- All handles that are left when the components are collected lead somewhere. -/
theorem closed_collect (hp : p.registry = .empty)
    (h : Runs (Component.collect document (resolveNode document) scope) p () q) :
    Closed document (fun _ => False) q.registry ∧
      q.registry.Sound (Component.Undeclared document) := by
  obtain ⟨⟨links, hc, -⟩, collected⟩ := Component.collect_induction (closure document)
    (I := fun links r => Closed document (Awaited document) r ∧
      AllKept document (Awaited document) r links)
    ⟨closed_base document, AllKept.nil⟩
    (fun links r s hr hl hi => hl.2 _ hr.sound hi.1)
    (fun links e m r s location found _ _ hr hs hi ha => by
      have hm : AllKept document (Awaited document) r (Link.model m).inner := hi.2.sub hs
      exact ⟨(hi.1.assert hr.sound hm ha).1, hi.2.mono (extends_assert ha hr.sound).2⟩)
    (fun links e ref m r s location found _ _ hr hm hi ha => by
      have hm : AllKept document (Awaited document) r (Link.model m).inner :=
        AllKept.aliasModel hi.1 hm
      exact ⟨(hi.1.assert hr.sound hm ha).1, hi.2.mono (extends_assert ha hr.sound).2⟩)
    hp h
  refine ⟨hc.settle fun name ⟨e, he, hn⟩ => Or.inl (collected.model he ?_), collected.ready.sound⟩
  have g : Grows (fun _ => False) (Component.base document) q.registry :=
    (collected.extended Component.base_sound).2.of_new
  exact g.name id hn

/-- A handle somewhere in the snapshot of an accepted document leads to a model, or its name was
given up. -/
theorem Graph.Accepts.kept (h : Graph.Accepts g document g') {ref : Ref}
    (mentioned : g'.snapshot.Mentions ref) (here : ref.isRemote = false) :
    Kept document (fun _ => False) g'.registry ref.name := by
  obtain ⟨s, t, walked, hc, hp, hr, -, -, hs⟩ := h.walked
  obtain ⟨closed, sound⟩ := closed_collect rfl hc
  have paths : Closes document s.registry _ t.registry :=
    Traversal.resolvePaths (T := closure document) hp
  obtain ⟨closed, kept⟩ := paths.2 _ sound closed
  rw [hs] at mentioned
  rw [hr]
  obtain ⟨x, hx, hw⟩ | ⟨k, e, he, hw⟩ := mentioned
  · exact closed.models hx ref hw here
  · obtain ⟨y, hy, m, hm, rfl⟩ | ⟨y, -, rfl⟩ | ⟨m, hm, rfl⟩ := Snapshot.mem_get he
    · refine kept ref (hw.sub ?_) here
      refine List.map_subset _ fun r hr => ?_
      exact List.mem_flatMap.2 ⟨m, List.mem_flatMap.2 ⟨y, hy, hm⟩, hr⟩
    · cases hw with
      | here hl => cases hl
      | inside hl => cases hl
    · obtain ⟨x, hx, rfl⟩ := List.mem_map.1 hm
      exact closed.models hx ref hw here

/-- All handles in the snapshot of an accepted document name registered models, exactly if none of
them has a name that was given up. -/
theorem handles_lead_to_models (h : Graph.Accepts g document g') :
    (∀ ref, g'.snapshot.Mentions ref → ref.isRemote = false →
      Dict.has g'.snapshot.models ref.name = true) ↔
    ∀ ref, g'.snapshot.Mentions ref → ref.isRemote = false →
      ¬ Orphaned document g'.registry ref.name := by
  have models : g'.snapshot.models = g'.registry.models := by
    obtain ⟨s, t, walked, -, -, hr, -, -, hs⟩ := h.walked
    rw [hs, hr]
  rw [models]
  constructor
  · rintro closed ref hm hr ⟨-, hn⟩
    have hc : g'.registry.contains ref.name = true := closed ref hm hr
    rw [hn] at hc
    cases hc
  · intro none ref hm hr
    obtain hk | hk | hk := h.kept hm hr
    · exact hk
    · exact hk.elim
    · by_contra hn
      exact none ref hm hr ⟨hk, by simpa [Registry.contains] using hn⟩

/-- A description with a schema two properties of which refer to one node elsewhere. -/
def sharedPointer (node : Json) : Json :=
  .obj [("openapi", .str "3.0.0"),
    ("components", .obj [("schemas", .obj [("A", .obj [("properties", .obj [
      ("p", .obj [("$ref", .str "#/x/R")]), ("q", .obj [("$ref", .str "#/x/R")])])])])]),
    ("x", .obj [("R", node)])]

/-- The change of an empty graph that reads the description. -/
def sharedPointer.change (node : Json) : Graph.Change Unit :=
  Graph.empty.parse (sharedPointer node) none

theorem sharedPointer.accepts {node : Json} (h : (change node).outcome.isOk = true) :
    Graph.Accepts Graph.empty (sharedPointer node) (change node).graph := by
  refine .json ?_
  change (change node).outcome = _
  generalize (change node).outcome = x at h
  cases x with
  | error f => cases h
  | ok u => rfl

/-- If the node is a schema, both properties lead to its model. -/
theorem handles_lead_to_models_schema :
    Graph.Accepts Graph.empty (sharedPointer (.obj [])) (sharedPointer.change (.obj [])).graph ∧
      ∀ ref, (sharedPointer.change (.obj [])).graph.snapshot.Mentions ref → ref.isRemote = false →
        Dict.has (sharedPointer.change (.obj [])).graph.snapshot.models ref.name = true := by
  have accepted : Graph.Accepts Graph.empty (sharedPointer (.obj []))
      (sharedPointer.change (.obj [])).graph := sharedPointer.accepts (by decide +kernel)
  refine ⟨accepted, (handles_lead_to_models accepted).2 ?_⟩
  rintro ref - - ⟨⟨text, target, -, hk, -, ht, hb, -⟩, -⟩
  have plain : ∀ text ∈ Dict.keys (sharedPointer.change (.obj [])).graph.registry.named,
      (Pointer.resolve (sharedPointer (.obj [])) text).all
        (fun target => !target.has "$ref") = true := by decide +kernel
  obtain ⟨name, hn⟩ := Option.ne_none_iff_exists'.1 hk
  have hp := plain text (Dict.mem_keys_of_lookup hn)
  rw [ht] at hp
  simp [hb] at hp

/-- If it refers to another document, the second property leads nowhere. -/
theorem handle_leads_nowhere :
    (sharedPointer.change (.obj [("$ref", .str "https://e.com/s")])).outcome.isOk = true ∧
      (sharedPointer.change (.obj [("$ref", .str "https://e.com/s")])).graph.snapshot.Mentions
        (.named "R") ∧
      Dict.has (sharedPointer.change (.obj [("$ref", .str "https://e.com/s")])).graph.snapshot.models
        "R" = false := by
  refine ⟨by decide +kernel, Or.inl ?_, by decide +kernel⟩
  have found : (sharedPointer.change
      (.obj [("$ref", .str "https://e.com/s")])).graph.snapshot.models.any (fun x => x.2.inner.any
        fun link => link.casesOn (· == .named "R") fun _ => false) = true := by
    decide +kernel
  obtain ⟨x, hx, hl⟩ := List.any_eq_true.1 found
  obtain ⟨link, hl, he⟩ := List.any_eq_true.1 hl
  cases link with
  | model m => cases he
  | ref ref => exact ⟨x, hx, .here (eq_of_beq he ▸ hl)⟩

/-- In particular they do if every pointer that was followed leads to something other than a
reference. -/
theorem handles_lead_to_models_of_plain (h : Graph.Accepts g document g')
    (plain : ∀ text target, g'.registry.named.lookup text ≠ none →
      Component.Undeclared document text → Pointer.resolve document text = some target →
      target.has "$ref" = false) {ref : Ref} (mentioned : g'.snapshot.Mentions ref)
    (here : ref.isRemote = false) : g'.registry.contains ref.name = true := by
  obtain hk | hk | ⟨text, target, -, hk, hu, ht, hb, -⟩ := h.kept mentioned here
  · exact hk
  · exact hk.elim
  · rw [plain text target hk hu ht] at hb
    cases hb

end ApiGraph
