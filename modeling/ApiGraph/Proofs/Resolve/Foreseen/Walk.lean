import ApiGraph.Proofs.Resolve.Foreseen.Operation

/-! The walk through an orderly document fails only as is foreseen: while components are collected,
and while paths and their operations are resolved. -/

namespace ApiGraph

open Resolving
open Registry (resolve_found)

variable {document : Json} {self : Resolver} {scope : Scope}

namespace Component

variable {e : Entry} {es : List Entry} {ref : Ref}

/-- What a component was resolved into can be registered: a model was made from a node, and a handle
from a reference. -/
structure Settled (document : Json) (x : Entry × Link Model) : Prop where
  drawn : Drawn document x.1.node
  model : ∀ m, x.2 = .model m → m.Sourced document
  ref : ∀ ref, x.2 = .ref ref → x.1.node.isObject = true

theorem safe_declared : Safe document Anything (declared document) := by
  have each (group : Group) :
      Safe document Anything (entriesOf (document.get "components") group) := by
    unfold entriesOf
    split
    · exact .pure fun _ => trivial
    · exact .pure fun _ => trivial
    · exact .malformed
  refine .ite (fun _ => .pure fun _ => trivial) fun _ => .ite (fun _ => .malformed_bind) fun _ => ?_
  exact (Safe.mapM fun group _ => each group).bind fun _ _ _ => .pure fun _ => trivial

theorem safe_reserve (e : Entry) : Safe document Anything (reserve e) :=
  Safe.registry.bind fun _ _ hr => .setRegistry (hr.2.reserve _ _)

theorem safe_canonicalName (e : Entry) : Safe document Anything (canonicalName e) :=
  Safe.registry.bind fun _ _ _ => .pure fun _ => trivial

section

variable (hself : self.Safe document) (orderly : document.Orderly)
include hself orderly

theorem safe_resolve (h : Drawn document e.node) :
    Safe document (fun link _ => Settled document (e, link)) (resolve self scope e) := by
  refine (safe_canonicalName e).bind fun name _ _ => ?_
  dsimp only
  have plain : Safe document (fun link _ => Settled document (e, link)) (do
      return (← self { Site.ofOwner (scope.relocated ["components", e.group.key, e.name]) name with
        hint := e.group.hint } e.node).result) := by
    refine (hself _ _ h).map fun out _ settled => ?_
    refine ⟨h, fun m hm => (settled.sourced h m hm).1, fun ref hr => ?_⟩
    cases settled with
    | model => cases hr
    | reference isRef =>
      cases hn : e.node with
      | obj entries => rfl
      | _ =>
        rw [hn] at isRef
        cases isRef
    | known object => exact object
  split
  · next entries he =>
    refine .ite (fun _ => ?_) fun _ => plain
    have drawn : Drawn document (Header.asParameter e.name entries) := (he ▸ h).asParameter e.name
    have named : (Header.asParameter e.name entries).has "name" = true := by
      rw [Traversal.has_asParameter]
      rfl
    refine (Parameter.safe_resolve hself orderly drawn rfl (.inr named)).map fun m _ hm => ?_
    refine ⟨h, fun k hk => ?_, nofun⟩
    obtain rfl := Link.model.inj hk
    exact hm.1.sourced (hm.2 ▸ rfl) (hm.2 ▸ drawn)
  · exact plain

theorem safe_each (h : ∀ e ∈ es, Drawn document e.node) :
    Safe document (fun resolved _ => ∀ x ∈ resolved, Settled document x)
      (resolveEach self scope es) := by
  induction es with
  | nil => exact .pure fun _ => nofun
  | cons e rest ih =>
    obtain ⟨first, others⟩ := List.forall_mem_cons.1 h
    refine (safe_resolve hself orderly first).bind fun link _ settled => ?_
    refine (ih others).bind fun more _ hm => .pure fun _ => ?_
    exact List.forall_mem_cons.2 ⟨settled, hm⟩

end

theorem safe_register {x : Entry × Link Model} (h : Settled document x) :
    Safe document Anything (register x) := by
  obtain ⟨e, link⟩ := x
  cases link with
  | ref ref => exact .pure fun _ => trivial
  | model m =>
    refine (Safe.assert fun k hk => ?_).bind fun _ _ _ => .pure fun _ => trivial
    obtain rfl := Link.model.inj hk
    exact ⟨h.model m rfl, nofun⟩

/-- The model of an alias is made from the node of the alias or from that of its target. -/
theorem sourced_aliasModel {r : Registry} (hr : r.Sourced document)
    (h : e.node.isObject = true ∧ Drawn document e.node) {name location : String} {m : Model}
    (hm : aliasModel r e name location ref = some m) : m.Sourced document := by
  obtain ⟨-, rfl⟩ | ⟨known, k, hk, rfl⟩ := aliasModel_cases hm
  · exact ⟨⟨rfl, rfl⟩, .inr h⟩
  · have sourced := hr.models hk
    exact ⟨⟨sourced.subtype, sourced.enum⟩, sourced.source⟩

theorem safe_registerAlias (h : e.node.isObject = true ∧ Drawn document e.node) :
    Safe document Anything (registerAlias e ref) := by
  refine (safe_canonicalName e).bind fun name _ _ => Safe.registry.bind fun r _ hr => ?_
  split
  · exact .pure fun _ => trivial
  · next m hm =>
    refine (Safe.assert fun k hk => ?_).bind fun _ _ _ => .pure fun _ => trivial
    obtain rfl := Link.model.inj hk
    exact ⟨sourced_aliasModel hr.2 h hm, nofun⟩

section

variable {pending : List (Entry × Ref)}

theorem safe_aliasRound (h : ∀ x ∈ pending, x.1.node.isObject = true ∧ Drawn document x.1.node) :
    Safe document (fun kept _ => kept ⊆ pending) (aliasRound pending) := by
  induction pending with
  | nil => exact .pure fun _ => List.Subset.refl _
  | cons x rest ih =>
    obtain ⟨first, others⟩ := List.forall_mem_cons.1 h
    refine (safe_registerAlias first).bind fun done _ _ => .ite (fun _ => ?_) fun _ => ?_
    · exact (ih others).imp fun _ _ sub => List.subset_cons_of_subset _ sub
    · exact (ih others).map fun _ _ sub => List.cons_subset_cons _ sub

theorem safe_registerAliases (rounds : Nat)
    (h : ∀ x ∈ pending, x.1.node.isObject = true ∧ Drawn document x.1.node) :
    Safe document Anything (registerAliases rounds pending) := by
  induction rounds generalizing pending with
  | zero =>
    cases pending with
    | nil => exact .pure fun _ => trivial
    | cons x rest => exact .fail rfl
  | succ rounds ih =>
    cases pending with
    | nil => exact .pure fun _ => trivial
    | cons x rest =>
      unfold registerAliases
      refine (safe_aliasRound h).bind fun kept _ sub => ?_
      split
      · exact .pure fun _ => trivial
      · exact .ite (fun _ => .fail rfl) fun _ => ih fun y hy => h y (sub hy)

end

theorem safe_collect (hself : self.Safe document) (orderly : document.Orderly) :
    Safe document Anything (collect document self scope) := by
  refine safe_declared.bind_run fun es p q run hq _ => ?_
  obtain ⟨rfl, rfl⟩ := declared_runs run
  have drawn (e : Entry) (he : e ∈ listed document) : Drawn document e.node :=
    (Reached.component he).drawn
  have rest : Safe document Anything (do
      (listed document).forM reserve
      let resolved ← resolveEach self scope (listed document)
      resolved.forM register
      let pending := aliases resolved
      registerAliases pending.length pending) := by
    refine (Safe.forM fun e _ => safe_reserve e).bind fun _ _ _ => ?_
    refine (safe_each hself orderly drawn).bind fun resolved _ settled => ?_
    refine (Safe.forM fun x hx => safe_register (settled x hx)).bind fun _ _ _ => ?_
    refine safe_registerAliases _ fun x hx => ?_
    obtain ⟨y, hy, hx⟩ := List.mem_filterMap.1 hx
    obtain ⟨e, link⟩ := y
    cases link with
    | model m => cases hx
    | ref ref =>
      obtain rfl := Option.some.inj hx
      exact ⟨(settled _ hy).ref ref rfl, (settled _ hy).drawn⟩
  exact rest _ hq

end Component

namespace Walk

section

variable (hself : self.Safe document) (orderly : document.Orderly) (chains : document.ChainsEnd)
include hself orderly chains

theorem safe_operations (path : String) {item : Json}
    (h : item.isObject = true ∧ Drawn document item) (verbs : List Verb) :
    Safe document Anything (operations document self scope path item verbs) := by
  induction verbs with
  | nil => exact .pure fun _ => trivial
  | cons verb rest ih =>
    unfold operations
    split
    · exact ih
    · next operation ho =>
      have key : verb.word ∈ Json.nodeKeys := by cases verb <;> decide
      have drawn : Drawn document operation := Json.eq_of_nonNull ho ▸ h.2.value key
      refine (Method.safe_resolve hself orderly chains verb path h drawn).bind fun m _ _ => ?_
      refine (Safe.notify _).bind fun _ _ _ => ih.bind fun _ _ _ => .pure fun _ => trivial

theorem safe_path (name : String) {node : Json} (h : Drawn document node) :
    Safe document Anything (path document self scope name node) := by
  refine (safe_dereference chains h).bind fun item _ hi => ?_
  have fit := hi.2.fit orderly
  have header : (pathHeader item).Fits := by
    refine Shape.Checked.fits_seq.2 ⟨Shape.Checked.fits_map.2 ?_, fit.description⟩
    exact Shape.fits_withDefault_text (fit.text "summary" (by decide))
  refine (Safe.fit header).bind fun _ _ _ => ?_
  refine (safe_operations hself orderly chains name hi Verb.all).bind fun _ _ _ => ?_
  exact (Safe.notify _).bind fun _ _ _ => .pure fun _ => trivial

theorem safe_paths : Safe document Anything (paths document self scope) := by
  refine .ite (fun _ => .pure fun _ => trivial) fun _ => ?_
  split
  · next entries he =>
    refine .mapM fun entry hentry => safe_path hself orderly chains entry.1 (Reached.path ?_).drawn
    rw [listed, he]
    exact hentry
  · exact .malformed

end

theorem safe_models : Safe document Anything models := by
  have loop (ms : List Model) : Safe document Anything
      (forIn ms PUnit.unit fun m _ => do
        notify (.entity [m.kind, .model] (.model m))
        return .yield PUnit.unit) := by
    induction ms with
    | nil => exact .pure fun _ => trivial
    | cons m ms ih =>
      rw [List.forIn_cons]
      have step : Safe document (fun next _ => next = .yield PUnit.unit) (do
          notify (.entity [m.kind, .model] (.model m))
          return (.yield PUnit.unit : ForInStep PUnit)) :=
        (Safe.notify _).bind fun _ _ _ => .pure fun _ => rfl
      refine step.bind fun next _ hn => ?_
      subst hn
      exact ih
  exact Safe.registry.bind fun r _ _ => (loop _).bind fun _ _ _ => .pure fun _ => trivial

end Walk

/-- The walk through an orderly document whose chains of references end fails only as is foreseen,
unless a reference stands for a model that was resolved from nothing. -/
theorem safe_walk (orderly : document.Orderly) (chains : document.ChainsEnd) :
    Safe document Anything (walk document) := by
  have hself := safe_resolveNode orderly
  refine (Component.safe_collect hself orderly).bind fun _ _ _ => ?_
  refine (Walk.safe_paths hself orderly chains).bind fun _ _ _ => ?_
  exact Walk.safe_models.bind fun _ _ _ => .pure fun _ => trivial

end ApiGraph
