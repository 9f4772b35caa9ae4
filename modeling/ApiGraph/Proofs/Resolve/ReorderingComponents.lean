import ApiGraph.Proofs.Resolve.Reordering
import ApiGraph.Resolve.Component

/-! Components that are the same but for the order of keys are collected side by side: the sections
of components are walked through, so that they come in the same order. -/

namespace ApiGraph

open Resolving

namespace Component

/-- Components under the same key whose nodes are the same but for the order of keys. -/
structure Entry.Kin (e e' : Entry) : Prop where
  group : e.group = e'.group
  name : e.name = e'.name
  node : Json.Kin false e.node e'.node

variable {document document' : Json} {walked : Bool} {self self' : Resolver} {scope : Scope}
  {e e' : Entry} {es es' : List Entry}

theorem Entry.Kin.key_eq (h : e.Kin e') : e.key = e'.key := by
  rw [key, key, h.group, h.name]

theorem parallel_entriesOf {components components' : Json}
    (h : Json.Kin walked components components') {group : Group} (hg : group ∈ groups) :
    Parallel (List.Forall₂ Entry.Kin) (entriesOf components group)
      (entriesOf components' group) := by
  have sections : ∀ group ∈ groups, Json.walkedKeys.contains group.key = true := by decide
  have declared := h.walk (sections group hg)
  unfold entriesOf
  generalize components.get group.key = v at declared
  generalize components'.get group.key = w at declared
  cases declared with
  | null => exact .pure .nil
  | obj order length values literal =>
    refine .pure ?_
    rw [List.forall₂_map_left_iff, List.forall₂_map_right_iff]
    exact (Json.Kin.obj order length values literal).paired.imp fun _ _ h => ⟨rfl, h.1, h.2⟩
  | _ => exact .malformed rfl rfl

theorem parallel_declared (hdoc : Json.Kin walked document document') :
    Parallel (List.Forall₂ Entry.Kin) (declared document) (declared document') := by
  have components := hdoc.get "components"
  unfold declared
  dsimp only
  rw [components.truthy_eq, components.isObject_eq]
  refine .ite (fun _ => .pure .nil) fun _ => .ite (fun _ => .malformed_bind rfl) fun _ => ?_
  refine (Parallel.mapM (S := List.Forall₂ Entry.Kin) ?_).bind fun _ _ h => ?_
  · exact List.forall₂_same.2 fun group hg => parallel_entriesOf components hg
  · exact .pure (List.rel_flatten h)

theorem parallel_reserve (h : e.Kin e') : Parallel Eq (reserve e) (reserve e') := by
  refine Parallel.registry.bind fun r r' hr => ?_
  rw [h.name, h.group, h.key_eq, Registry.isTaken, hr.taken]
  exact .setRegistry (hr.reserve _ _)

theorem parallel_canonicalName (h : e.Kin e') :
    Parallel Eq (canonicalName e) (canonicalName e') := by
  refine Parallel.registry.bind fun r r' hr => .pure ?_
  rw [h.key_eq, h.name, hr.lookupRef_eq]

section

variable (hself : self.Parallel self')
include hself

theorem parallel_resolve (h : e.Kin e') :
    Parallel Link.Kin (resolve self scope e) (resolve self' scope e') := by
  obtain ⟨group, name, node⟩ := e
  obtain ⟨_, _, node'⟩ := e'
  obtain ⟨rfl, rfl, hn⟩ : group = _ ∧ name = _ ∧ Json.Kin false node node' := ⟨h.1, h.2, h.3⟩
  refine (parallel_canonicalName h).bind_eq fun given => ?_
  have plain : Parallel Link.Kin (do
      return (← self { Site.ofOwner (scope.relocated ["components", group.key, name]) given with
        hint := group.hint } node).result) (do
      return (← self' { Site.ofOwner (scope.relocated ["components", group.key, name]) given with
        hint := group.hint } node').result) :=
    (hself _ _ _ hn).bind fun _ _ hout => .pure hout.result
  cases hn with
  | obj order length values literal =>
    have hn := Json.Kin.obj order length values literal
    dsimp only
    rw [hn.has_eq]
    refine .ite (fun _ => ?_) fun _ => plain
    exact (Parameter.parallel_resolve hself (Header.kin_asParameter hn name) given).bind
      fun _ _ hm => .pure (.model hm)
  | _ => exact plain

theorem parallel_each (h : List.Forall₂ Entry.Kin es es') :
    Parallel (List.Forall₂ (Both Entry.Kin Link.Kin)) (resolveEach self scope es)
      (resolveEach self' scope es') := by
  induction h with
  | nil => exact .pure .nil
  | cons first _ ih =>
    exact (parallel_resolve hself first).bind fun _ _ hl => ih.bind fun _ _ hrest =>
      .pure (.cons ⟨first, hl⟩ hrest)

end

theorem parallel_register {x y : Entry × Link Model} (h : Both Entry.Kin Link.Kin x y) :
    Parallel Eq (register x) (register y) := by
  obtain ⟨e, l⟩ := x
  obtain ⟨e', l'⟩ := y
  obtain ⟨he, hl⟩ : e.Kin e' ∧ l.Kin l' := h
  cases hl with
  | ref r => exact .pure rfl
  | model hm =>
    unfold register
    dsimp only
    rw [he.key_eq, hm.location]
    exact (Parallel.assert he.node (.model hm) _ _ _).bind fun _ _ _ => .pure rfl

theorem kin_aliases {xs ys : List (Entry × Link Model)}
    (h : List.Forall₂ (Both Entry.Kin Link.Kin) xs ys) :
    List.Forall₂ (Both Entry.Kin Eq) (aliases xs) (aliases ys) := by
  unfold aliases
  induction h with
  | nil => exact .nil
  | @cons x y xs ys first _ ih =>
    obtain ⟨e, l⟩ := x
    obtain ⟨e', l'⟩ := y
    obtain ⟨he, hl⟩ : e.Kin e' ∧ l.Kin l' := first
    rw [List.filterMap_cons, List.filterMap_cons]
    cases hl with
    | ref r => exact .cons ⟨he, rfl⟩ ih
    | model _ => exact ih

theorem kin_aliasModel {r r' : Registry} (hr : r.Kin r') (h : e.Kin e') (name location : String)
    (ref : Ref) : Option.Rel Model.Kin (aliasModel r e name location ref)
      (aliasModel r' e' name location ref) := by
  unfold aliasModel
  split
  · refine .some { Model.Kin.blank name .schema with
      source := h.node
      location := rfl
      type := rfl
      subtype := .str _
      dependencies := .cons (.refl _) .nil }
  · have found := hr.resolve ref.name
    generalize r.resolve ref.name = a at found
    generalize r'.resolve ref.name = b at found
    cases found with
    | none => exact .none
    | some found =>
      exact Json.rel_map found.model fun _ _ hm => { hm with name := rfl, location := rfl }

theorem parallel_registerAlias (h : e.Kin e') (ref : Ref) :
    Parallel Eq (registerAlias e ref) (registerAlias e' ref) := by
  refine (parallel_canonicalName h).bind_eq fun name => ?_
  rw [← h.group]
  refine Parallel.registry.bind fun r r' hr => ?_
  have model := kin_aliasModel hr h name s!"components.{e.group.key}.{name}" ref
  generalize aliasModel r e name s!"components.{e.group.key}.{name}" ref = a at model
  generalize aliasModel r' e' name s!"components.{e.group.key}.{name}" ref = b at model
  cases model with
  | none => exact .pure rfl
  | some hm =>
    rw [h.key_eq]
    exact (Parallel.assert .null (.model hm) _ _ _).bind fun _ _ _ => .pure rfl

theorem parallel_aliasRound {xs ys : List (Entry × Ref)}
    (h : List.Forall₂ (Both Entry.Kin Eq) xs ys) :
    Parallel (List.Forall₂ (Both Entry.Kin Eq)) (aliasRound xs) (aliasRound ys) := by
  induction h with
  | nil => exact .pure .nil
  | @cons x y xs ys first _ ih =>
    obtain ⟨e, ref⟩ := x
    obtain ⟨e', _⟩ := y
    obtain ⟨he, rfl⟩ : e.Kin e' ∧ ref = _ := first
    refine (parallel_registerAlias he ref).bind_eq fun done => .ite (fun _ => ih) fun _ => ?_
    exact ih.bind fun _ _ hrest => .pure (.cons ⟨he, rfl⟩ hrest)

theorem parallel_registerAliases (rounds : Nat) {xs ys : List (Entry × Ref)}
    (h : List.Forall₂ (Both Entry.Kin Eq) xs ys) :
    Parallel Eq (registerAliases rounds xs) (registerAliases rounds ys) := by
  induction rounds generalizing xs ys with
  | zero =>
    cases h with
    | nil => exact .pure rfl
    | cons first _ =>
      rw [registerAliases, registerAliases, first.1.key_eq, first.2]
      exact .stop _
  | succ rounds ih =>
    cases h with
    | nil => exact .pure rfl
    | cons first rest =>
      have length := rest.length_eq
      unfold registerAliases
      refine (parallel_aliasRound (.cons first rest)).bind fun left left' hleft => ?_
      cases hleft with
      | nil => exact .pure rfl
      | cons here there =>
        refine .ite_iff ?_ (fun _ => ?_) fun _ => ih (.cons here there)
        · rw [List.length_cons, List.length_cons, length, there.length_eq]
        · rw [here.1.key_eq, here.2]
          exact .stop _

/-- Components that are the same but for the order of keys are collected side by side. -/
theorem parallel_collect (hdoc : Json.Kin walked document document') (hself : self.Parallel self') :
    Parallel Eq (collect document self scope) (collect document' self' scope) := by
  refine (parallel_declared hdoc).bind fun es es' hes => ?_
  refine (Parallel.forM (hes.imp fun _ _ => parallel_reserve)).bind fun _ _ _ => ?_
  refine (parallel_each hself hes).bind fun xs ys hxy => ?_
  refine (Parallel.forM (hxy.imp fun _ _ => parallel_register)).bind fun _ _ _ => ?_
  have pending := kin_aliases hxy
  dsimp only
  rw [pending.length_eq]
  exact parallel_registerAliases _ pending

end Component

end ApiGraph
