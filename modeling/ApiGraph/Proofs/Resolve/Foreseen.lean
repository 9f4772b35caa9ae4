import ApiGraph.Proofs.Reached
import ApiGraph.Proofs.Resolve.Asking
import ApiGraph.Proofs.Resolve.Extension
import ApiGraph.Proofs.Shape

/-! Computations that fail only as is foreseen: because a reference leads nowhere, or because of a
flaw in the structure of a document. They rest on what is registered, whose formats and enumerations
can be read back, and they keep it so. -/

namespace ApiGraph

open Resolving Registry

/-- The failures that are foreseen for a description of an accepted version. -/
def Failure.isForeseen : Failure → Bool
  | .missingReference .. | .malformed .. => true
  | _ => false

/-- The format of a model is a text and its enumeration a list, if it has them. -/
structure Model.Worded (m : Model) : Prop where
  subtype : m.subtype.isOptionalText = true
  enum : m.enum.isOptionalList = true

/-- A worded model that was resolved from nothing or from a node of the document. -/
structure Model.Sourced (document : Json) (m : Model) : Prop extends m.Worded where
  source : m.source = .null ∨ m.source.isObject = true ∧ Drawn document m.source

namespace Registry

/-- All registered models are worded and sourced, and those that are found by their content were
resolved from nodes. -/
structure Sourced (document : Json) (r : Registry) : Prop where
  models : ∀ {name m}, r.models.lookup name = some m → m.Sourced document
  contents : ∀ {content name}, r.structural.lookup content = some name →
    name ∈ r.taken ∧ ∃ m, r.models.lookup name = some m ∧ m.source.isObject = true

/-- What the model that a reference stands for was resolved from. -/
def origin? (r : Registry) (text : String) : Option Json := do
  let m ← (← r.resolve (← r.lookupRef text).name).model
  return m.source

/-- No reference stands for a model that was resolved from nothing. -/
def Rooted (r : Registry) : Prop :=
  ∀ text v, Pointer.isLocal text = true → r.origin? text = some v → v.isObject = true

theorem rooted_iff {r : Registry} : r.Rooted ↔
    ∀ text ∈ Dict.keys r.named ++ Dict.keys r.models, Pointer.isLocal text = true →
      (r.origin? text).all Json.isObject = true := by
  constructor
  · intro h text _ here
    exact (Option.all_eq_true _ _).2 fun v hv => h text v here hv
  · intro h text v here hv
    have known : text ∈ Dict.keys r.named ++ Dict.keys r.models := by
      obtain ⟨ref, hr, -⟩ := Option.bind_eq_some_iff.1 hv
      obtain ⟨name, -, hn | ⟨rfl, hc⟩⟩ := lookupRef_eq_some hr
      · exact List.mem_append_left _ (Dict.mem_keys_of_lookup hn)
      · obtain ⟨m, hm⟩ := contains_iff.1 hc
        exact List.mem_append_right _ (Dict.mem_keys_of_lookup hm)
    exact (Option.all_eq_true _ _).1 (h text known here) v hv

instance : DecidablePred Rooted := fun _ => decidable_of_iff _ rooted_iff.symm

/-- A handle leads out of the document, or has the name that a reference stands for. -/
def Leads (r : Registry) (ref : Ref) : Prop :=
  ref.isRemote = true ∨
    ∃ text known, Pointer.isLocal text = true ∧ r.lookupRef text = some known ∧
      known.name = ref.name

end Registry

variable {document node : Json} {r s : Registry} {m : Model} {name : String} {α β : Type}
  {p q : Progress}

theorem Model.Sourced.entitled (h : m.Sourced document) (name : String) :
    (Registry.entitled m name).Sourced document := ⟨⟨h.subtype, h.enum⟩, h.source⟩

theorem Model.Worded.sourced (h : m.Worded) (object : m.source.isObject = true)
    (drawn : Drawn document m.source) : m.Sourced document := ⟨h, .inr ⟨object, drawn⟩⟩

namespace Registry.Sourced

theorem empty (document : Json) : Sourced document .empty := by
  constructor <;> intro _ _ h <;> cases h

/-- A change of names that gives none back. -/
theorem of_same (h : r.Sourced document) (models : s.models = r.models)
    (structural : s.structural = r.structural) (taken : r.taken ⊆ s.taken) :
    s.Sourced document := by
  refine ⟨fun hm => h.models (models ▸ hm), fun hc => ?_⟩
  obtain ⟨given, m, hm, object⟩ := h.contents (structural ▸ hc)
  exact ⟨taken given, m, models ▸ hm, object⟩

theorem reserve (h : r.Sourced document) (key name : String) :
    (r.reserve key name).2.Sourced document := by
  unfold Registry.reserve
  split
  · exact h
  · exact h.of_same rfl rfl (List.subset_cons_self _ _)

/-- One more model, under a name that no content has had. -/
theorem put (h : r.Sourced document) (hm : m.Sourced document)
    (models : s.models = Dict.put r.models name m) (taken : r.taken ⊆ s.taken)
    (contents : ∀ {content n}, s.structural.lookup content = some n →
      n ≠ name ∧ r.structural.lookup content = some n ∨
        n = name ∧ name ∈ s.taken ∧ m.source.isObject = true) : s.Sourced document := by
  constructor
  · intro n k hk
    rw [models] at hk
    rcases lookup_put_cases hk with ⟨-, rfl⟩ | hk
    · exact hm
    · exact h.models hk
  · intro content n hc
    rw [models]
    rcases contents hc with ⟨other, hc⟩ | ⟨rfl, given, object⟩
    · obtain ⟨given, k, hk, object⟩ := h.contents hc
      exact ⟨taken given, k, by rwa [Dict.lookup_put_of_ne _ _ (by simpa using other)], object⟩
    · exact ⟨given, m, Dict.lookup_put_self _ _ _, object⟩

/-- A model that was resolved from a node may be found by its content. -/
theorem register (h : r.Sourced document) (hm : m.Sourced document) {space : KeySpace}
    (object : space = .structural → m.source.isObject = true) (key : String) :
    (r.register space key m).2.Sourced document ∧
      ∀ k, (r.register space key m).1.model = some k → space = .structural →
        k.source.isObject = true := by
  have fresh : r.freeName m.name ∉ r.taken := freeName_not_mem r m.name
  have apart {content n : String} (hc : r.structural.lookup content = some n) :
      n ≠ r.freeName m.name := fun he => fresh (he ▸ (h.contents hc).1)
  unfold Registry.register
  split
  · next n hi =>
    split
    · next known hk =>
      refine ⟨h, fun k he hs => ?_⟩
      obtain rfl : known = k := Option.some.inj he
      subst hs
      obtain ⟨-, k, hk', found⟩ := h.contents hi
      rw [hk] at hk'
      exact Option.some.inj hk' ▸ found
    · next hn =>
      refine ⟨h.put (hm.entitled n) rfl (List.Subset.refl _) fun hc => .inl ⟨?_, hc⟩,
        fun k he hs => ?_⟩
      · rintro rfl
        obtain ⟨-, k, hk, -⟩ := h.contents hc
        rw [hn] at hk
        cases hk
      · exact Option.some.inj he ▸ object hs
  · refine ⟨?_, fun k he hs => Option.some.inj he ▸ object hs⟩
    have more : r.taken ⊆ r.freeName m.name :: r.taken := List.subset_cons_self _ _
    cases space with
    | named => exact h.put (hm.entitled _) rfl more fun hc => .inl ⟨apart hc, hc⟩
    | structural =>
      refine h.put (hm.entitled (r.freeName m.name)) rfl more fun hc => ?_
      rcases lookup_put_cases hc with ⟨-, rfl⟩ | hc
      · exact .inr ⟨rfl, List.mem_cons_self, object rfl⟩
      · exact .inl ⟨apart hc, hc⟩

theorem assert (h : r.Sourced document) {raw : Json} {parsed : Link Model} {hint : Option String}
    {space : KeySpace} {location : String} {found : Resolved}
    (hm : ∀ m, parsed = .model m → m.Sourced document ∧
      (space = .structural → m.source.isObject = true))
    (ha : r.assert raw parsed hint space location = .ok (found, s)) : s.Sourced document := by
  obtain rfl | ⟨m, rfl, made⟩ := assert_cases ha
  · exact h
  · have kept := (h.register (hm m rfl).1 (hm m rfl).2 (keyFor space raw m hint)).1
    rwa [made] at kept

end Registry.Sourced

namespace Registry

theorem lookupRef_of_named {key : String} (h : r.named.lookup key = some name) :
    r.lookupRef key = some (.named name) := by
  rw [lookupRef, h]

theorem requireRef_error {ref : Ref} {location : String} {f : Failure}
    (h : r.requireRef ref location = .error f) : f.isForeseen = true := by
  unfold requireRef at h
  split at h
  · cases h
  · cases h
    rfl

/-- Something is registered, or a reference leads nowhere. -/
theorem assert_error {raw : Json} {parsed : Link Model} {hint : Option String} {space : KeySpace}
    {location : String} {f : Failure} (h : r.assert raw parsed hint space location = .error f) :
    f.isForeseen = true := by
  cases parsed with
  | ref ref =>
    simp only [assert] at h
    cases hr : r.requireRef ref location with
    | ok found =>
      rw [hr] at h
      cases h
    | error e =>
      rw [hr] at h
      cases h
      exact requireRef_error hr
  | model m =>
    simp only [assert, require] at h
    split at h
    · next key _ =>
      split at h
      · cases hr : r.resolve key with
        | none =>
          rw [hr] at h
          cases h
          rfl
        | some found =>
          rw [hr] at h
          cases h
      · cases h
    · cases h

end Registry

/-- Any result at all. -/
def Anything : α → Registry → Prop := fun _ _ => True

/-- A computation came to a result of a kind, with which what is registered is sourced, or it failed
as is foreseen. There is one more failure if a reference stands for a model without a node. -/
def Guards (document : Json) (P : α → Registry → Prop) : Upshot α → Prop
  | (.ok a, q) => q.registry.Sourced document ∧ P a q.registry
  | (.error f, q) => f.isForeseen = true ∨ ¬ q.registry.Rooted

/-- From every state in which what is registered is sourced, a computation comes to a result of a
kind, or it fails as is foreseen. -/
def Safe (document : Json) (P : α → Registry → Prop) (m : Resolving α) : Prop :=
  ∀ p : Progress, p.registry.Sourced document → Guards document P (m.run.run p)

variable {P : α → Registry → Prop} {Q : β → Registry → Prop} {m : Resolving α} {f : α → Resolving β}

/-- What comes next may rest on the run up to there. -/
theorem Guards.bind (h : Guards document P (m.run.run p))
    (hf : ∀ a q, Runs m p a q → q.registry.Sourced document → P a q.registry →
      Guards document Q ((f a).run.run q)) : Guards document Q ((m >>= f).run.run p) := by
  rw [run_bind]
  generalize hr : m.run.run p = x at h
  obtain ⟨a | a, q⟩ := x
  · exact h
  · exact hf a q hr h.1 h.2

namespace Safe

/-- The same from every state. -/
theorem bind_run (h : Safe document P m)
    (hf : ∀ a p q, Runs m p a q → q.registry.Sourced document → P a q.registry →
      Guards document Q ((f a).run.run q)) : Safe document Q (m >>= f) :=
  fun p hp => (h p hp).bind fun a q => hf a p q

theorem bind (h : Safe document P m) (hf : ∀ a r, P a r → Safe document Q (f a)) :
    Safe document Q (m >>= f) :=
  h.bind_run fun a _ q _ hq ha => hf a q.registry ha q hq

theorem pure {a : α} (h : ∀ r, P a r) : Safe document P (Pure.pure a) :=
  fun p hp => ⟨hp, h p.registry⟩

/-- What a result is turned into may rest on the registry. -/
theorem map {g : α → β} (h : Safe document P m) (hg : ∀ a r, P a r → Q (g a) r) :
    Safe document Q (m >>= fun a => Pure.pure (g a)) :=
  h.bind_run fun a _ q _ hq ha => ⟨hq, hg a q.registry ha⟩

theorem imp {P' : α → Registry → Prop} (h : Safe document P m) (hp : ∀ a r, P a r → P' a r) :
    Safe document P' m := by
  intro p hs
  have whole := h p hs
  generalize m.run.run p = x at whole
  obtain ⟨a | a, q⟩ := x
  · exact whole
  · exact ⟨whole.1, hp a q.registry whole.2⟩

theorem ends (h : Safe document P m) : Safe document Anything m := h.imp fun _ _ _ => trivial

theorem fail {e : Failure} (h : e.isForeseen = true) : Safe document P (Resolving.fail e) :=
  fun _ _ => .inl h

theorem malformed {flaw : Schema.Flaw} {location : String} :
    Safe document P (Resolving.malformed flaw location) := fail rfl

theorem malformed_bind {flaw : Schema.Flaw} {location : String} :
    Safe document Q (Resolving.malformed flaw location >>= f) :=
  (malformed (P := Anything)).bind_run fun _ _ _ h => (runs_malformed.1 h).elim

theorem ite {c : Prop} [Decidable c] {n : Resolving α} (h : c → Safe document P m)
    (h' : ¬ c → Safe document P n) : Safe document P (if c then m else n) := by
  by_cases hc : c
  · simpa only [if_pos hc] using h hc
  · simpa only [if_neg hc] using h' hc

theorem fit {x : Shape.Checked α} (h : x.Fits) : Safe document Anything (Resolving.fit x) := by
  obtain ⟨a, rfl⟩ := h
  exact pure fun _ => trivial

/-- Something that may fail, and changes nothing. -/
theorem lift {x : Except Failure α} (ok : ∀ a, x = .ok a → ∀ r, P a r)
    (error : ∀ f, x = .error f → f.isForeseen = true) : Safe document P (Resolving.lift x) := by
  cases x with
  | ok a => exact pure (ok a rfl)
  | error f => exact fail (error f rfl)

theorem registry : Safe document (fun r s => r = s ∧ r.Sourced document) Resolving.registry :=
  fun _ hp => ⟨hp, rfl, hp⟩

theorem setRegistry (h : r.Sourced document) : Safe document Anything (Resolving.setRegistry r) :=
  fun _ _ => ⟨h, trivial⟩

theorem freeName (name : String) : Safe document Anything (Resolving.freeName name) :=
  fun _ hp => ⟨hp, trivial⟩

theorem claim (name : String) : Safe document Anything (Resolving.claim name) :=
  fun _ hp => ⟨hp.of_same rfl rfl (List.subset_cons_self _ _), trivial⟩

theorem notify (n : Notice) : Safe document Anything (Resolving.notify n) :=
  fun _ hp => ⟨hp, trivial⟩

theorem assert {raw : Json} {parsed : Link Model} {hint : Option String} {space : KeySpace}
    {location : String} (hm : ∀ m, parsed = .model m → m.Sourced document ∧
      (space = .structural → m.source.isObject = true)) :
    Safe document Anything (Resolving.assert raw parsed hint space location) := by
  refine registry.bind_run fun r _ q _ hq ⟨hr, _⟩ => ?_
  subst hr
  unfold Resolving.lift
  cases ha : q.registry.assert raw parsed hint space location with
  | error f => exact .inl (assert_error ha)
  | ok x => exact ⟨hq.assert hm ha, trivial⟩

theorem mapM {f : α → Resolving β} {as : List α} (h : ∀ a ∈ as, Safe document Q (f a)) :
    Safe document Anything (as.mapM f) := by
  induction as with
  | nil => exact pure fun _ => trivial
  | cons a as ih =>
    rw [List.mapM_cons]
    refine (h a List.mem_cons_self).bind fun _ _ _ => ?_
    exact (ih fun a ha => h a (List.mem_cons_of_mem _ ha)).map fun _ _ _ => trivial

theorem forM {f : α → Resolving Unit} {as : List α} (h : ∀ a ∈ as, Safe document Anything (f a)) :
    Safe document Anything (as.forM f) := by
  induction as with
  | nil => exact pure fun _ => trivial
  | cons a as ih =>
    exact (h a List.mem_cons_self).bind fun _ _ _ => ih fun a ha => h a (List.mem_cons_of_mem _ ha)

/-- What passes a test was there before. -/
theorem filterM {f : α → Resolving Bool} {as : List α}
    (h : ∀ a ∈ as, Safe document Anything (f a)) :
    Safe document (fun kept _ => kept ⊆ as) (as.filterM f) := by
  have aux (more kept : List α) (hm : ∀ a ∈ more, Safe document Anything (f a)) :
      Safe document (fun out _ => out ⊆ more ++ kept) (List.filterAuxM f more kept) := by
    induction more generalizing kept with
    | nil => exact pure fun _ => List.Subset.refl _
    | cons a more ih =>
      rw [List.filterAuxM]
      refine (hm a List.mem_cons_self).bind fun b _ _ => ?_
      refine (ih _ fun a ha => hm a (List.mem_cons_of_mem _ ha)).imp fun out _ ho => ?_
      cases b with
      | true => exact List.Subset.trans ho (by simp)
      | false => exact List.Subset.trans ho (by simp)
  exact (aux as [] h).map fun out _ ho a ha => by simpa using ho (List.mem_reverse.1 ha)

end Safe

end ApiGraph
