import ApiGraph.Proofs.Json.Agreeing
import ApiGraph.Proofs.Registry.Kin
import ApiGraph.Proofs.Resolve.Run

/-! Two computations that run side by side from states that are the same but for the order of keys.
Either both succeed with related results or both fail in the same way, and the states stay the same
but for the order of keys, also after a failure. -/

namespace ApiGraph

open Resolving

/-- Notices about entities that are the same but for the order of keys. -/
inductive Notice.Kin : Notice → Notice → Prop
  | entity (categories : List Kind) {e e' : Entity} (entities : e.Kin e') :
    Kin (.entity categories e) (.entity categories e')
  | warning (text : String) : Kin (.warning text) (.warning text)

/-- States that are the same but for the order of keys. -/
structure Progress.Kin (p p' : Progress) : Prop where
  registry : p.registry.Kin p'.registry
  notices : List.Forall₂ Notice.Kin p.notices p'.notices
  methodNames : p.methodNames = p'.methodNames

/-- Outcomes that are the same but for the order of keys. -/
structure Outcome.Kin (o o' : Outcome) : Prop where
  result : o.result.Kin o'.result
  needs : List.Forall₂ Link.Alike o.needs o'.needs

/-- From states that are the same but for the order of keys, two computations end in the same way
and in such states. -/
def Parallel {α β : Type} (R : α → β → Prop) (m : Resolving α) (m' : Resolving β) : Prop :=
  ∀ p p' : Progress, p.Kin p' → Both (Matches R) Progress.Kin (m.run.run p) (m'.run.run p')

variable {α β γ δ : Type} {R : α → β → Prop} {S : γ → δ → Prop}

theorem Progress.Kin.start : Progress.start.Kin .start := ⟨.empty, .nil, rfl⟩

namespace Parallel

variable {m : Resolving α} {m' : Resolving β} {f : α → Resolving γ} {f' : β → Resolving δ}

theorem pure {a : α} {b : β} (h : R a b) : Parallel R (Pure.pure a) (Pure.pure b) :=
  fun _ _ hp => ⟨.ok h, hp⟩

theorem fail {e e' : Failure} (h : e.Akin e') : Parallel R (Resolving.fail e) (Resolving.fail e') :=
  fun _ _ hp => ⟨.error h, hp⟩

theorem stop (e : Failure) : Parallel R (Resolving.fail e) (Resolving.fail e) := fail (.same e)

theorem malformed {flaw flaw' : Schema.Flaw} {location location' : String} (h : flaw = flaw')
    (hl : location = location') :
    Parallel R (Resolving.malformed flaw location) (Resolving.malformed flaw' location') := by
  subst h hl
  exact stop _

/-- The second computations run side by side on related results of the first ones. -/
theorem bind (h : Parallel R m m') (hf : ∀ a b, R a b → Parallel S (f a) (f' b)) :
    Parallel S (m >>= f) (m' >>= f') := by
  intro p p' hp
  obtain ⟨outcomes, states⟩ := h p p' hp
  rw [run_bind, run_bind]
  generalize m.run.run p = x at outcomes states
  generalize m'.run.run p' = y at outcomes states
  obtain ⟨x, q⟩ := x
  obtain ⟨y, q'⟩ := y
  cases outcomes with
  | ok values => exact hf _ _ values q q' states
  | error failures => exact ⟨.error failures, states⟩

/-- The same for first results that are equal. -/
theorem bind_eq {m m' : Resolving α} {f : α → Resolving γ} {f' : α → Resolving δ}
    (h : Parallel Eq m m') (hf : ∀ a, Parallel S (f a) (f' a)) :
    Parallel S (m >>= f) (m' >>= f') :=
  h.bind fun a _ hab => hab ▸ hf a

theorem malformed_bind {flaw flaw' : Schema.Flaw} {location : String} (h : flaw = flaw') :
    Parallel S (Resolving.malformed flaw location >>= f)
      (Resolving.malformed flaw' location >>= f') :=
  (malformed (R := fun _ _ => False) h rfl).bind fun _ _ h => h.elim

theorem stop_bind (e : Failure) :
    Parallel S (Resolving.fail e >>= f) (Resolving.fail e >>= f') :=
  (stop (R := fun _ _ => False) e).bind fun _ _ h => h.elim

theorem imp {T : α → β → Prop} (h : Parallel R m m') (ht : ∀ a b, R a b → T a b) :
    Parallel T m m' := by
  intro p p' hp
  obtain ⟨outcomes, states⟩ := h p p' hp
  exact ⟨outcomes.imp ht, states⟩

theorem ite_iff {c c' : Prop} [Decidable c] [Decidable c'] {m₁ m₂ : Resolving α}
    {n₁ n₂ : Resolving β} (same : c ↔ c') (h : c → Parallel R m₁ n₁)
    (h' : ¬ c → Parallel R m₂ n₂) :
    Parallel R (if c then m₁ else m₂) (if c' then n₁ else n₂) := by
  by_cases hc : c
  · simpa only [if_pos hc, if_pos (same.1 hc)] using h hc
  · simpa only [if_neg hc, if_neg (mt same.2 hc)] using h' hc

theorem ite {c : Prop} [Decidable c] {m₁ m₂ : Resolving α} {n₁ n₂ : Resolving β}
    (h : c → Parallel R m₁ n₁) (h' : ¬ c → Parallel R m₂ n₂) :
    Parallel R (if c then m₁ else m₂) (if c then n₁ else n₂) := ite_iff Iff.rfl h h'

/-- Something that may fail, and changes nothing. -/
theorem lift {x : Except Failure α} {y : Except Failure β} (h : Matches R x y) :
    Parallel R (Resolving.lift x) (Resolving.lift y) := by
  cases h with
  | ok values => exact pure values
  | error failures => exact fail failures

theorem fit {x : Shape.Checked α} {y : Shape.Checked β} (h : x.Agrees R y) :
    Parallel R (Resolving.fit x) (Resolving.fit y) := by
  cases h with
  | fits values => exact pure values
  | fails => exact fail .mismatch

theorem registry : Parallel Registry.Kin Resolving.registry Resolving.registry :=
  fun _ _ hp => ⟨.ok hp.registry, hp⟩

theorem setRegistry {r r' : Registry} (h : r.Kin r') :
    Parallel Eq (Resolving.setRegistry r) (Resolving.setRegistry r') :=
  fun _ _ hp => ⟨.ok rfl, h, hp.notices, hp.methodNames⟩

theorem notify {n n' : Notice} (h : n.Kin n') :
    Parallel Eq (Resolving.notify n) (Resolving.notify n') :=
  fun _ _ hp => ⟨.ok rfl, hp.registry, List.rel_append hp.notices (.cons h .nil), hp.methodNames⟩

theorem freeName {name name' : String} (h : name = name') :
    Parallel Eq (Resolving.freeName name) (Resolving.freeName name') :=
  fun _ _ hp => ⟨.ok (h ▸ hp.registry.freeName_eq name), hp⟩

theorem claim {name name' : String} (h : name = name') :
    Parallel Eq (Resolving.claim name) (Resolving.claim name') :=
  registry.bind fun _ _ hr => setRegistry (h ▸ hr.claim name)

theorem assert {raw raw' : Json} (hraw : Json.Kin false raw raw') {parsed parsed' : Link Model}
    (hp : parsed.Kin parsed') (hint : Option String) (space : KeySpace) (location : String) :
    Parallel Resolved.Kin (Resolving.assert raw parsed hint space location)
      (Resolving.assert raw' parsed' hint space location) := by
  refine registry.bind fun r r' hr => ?_
  refine (lift (hr.assert hraw hp hint space location)).bind fun x y hxy => ?_
  exact (setRegistry hxy.2).bind fun _ _ _ => pure hxy.1

theorem mapM {as : List α} {bs : List β} {f : α → Resolving γ} {g : β → Resolving δ}
    (h : List.Forall₂ (fun a b => Parallel S (f a) (g b)) as bs) :
    Parallel (List.Forall₂ S) (as.mapM f) (bs.mapM g) := by
  induction h with
  | nil => exact pure .nil
  | cons first _ ih =>
    rw [List.mapM_cons, List.mapM_cons]
    exact first.bind fun _ _ value => ih.bind fun _ _ values => pure (.cons value values)

theorem forM {as : List α} {bs : List β} {f : α → Resolving Unit} {g : β → Resolving Unit}
    (h : List.Forall₂ (fun a b => Parallel Eq (f a) (g b)) as bs) :
    Parallel Eq (as.forM f) (bs.forM g) := by
  induction h with
  | nil => exact pure rfl
  | cons first _ ih => exact first.bind fun _ _ _ => ih

/-- The same items pass a test. -/
theorem filterM {as : List α} {bs : List β} {f : α → Resolving Bool} {g : β → Resolving Bool}
    (h : List.Forall₂ (fun a b => R a b ∧ Parallel Eq (f a) (g b)) as bs) :
    Parallel (List.Forall₂ R) (as.filterM f) (bs.filterM g) := by
  have aux {kept : List α} {kept' : List β} (hk : List.Forall₂ R kept kept') :
      Parallel (List.Forall₂ R) (List.filterAuxM f as kept) (List.filterAuxM g bs kept') := by
    induction h generalizing kept kept' with
    | nil => exact pure hk
    | cons first _ ih =>
      rw [List.filterAuxM, List.filterAuxM]
      refine first.2.bind_eq fun b => ?_
      cases b with
      | true => exact ih (.cons first.1 hk)
      | false => exact ih hk
  exact (aux .nil).bind fun _ _ values => pure (List.rel_reverse values)

end Parallel

end ApiGraph
