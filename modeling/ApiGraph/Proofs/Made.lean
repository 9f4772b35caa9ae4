import ApiGraph.Proofs.Graph
import ApiGraph.Proofs.Links
import ApiGraph.Proofs.Resolve.Collection

/-! All models of an accepted document are made by the resolution, at any depth, and all links
between them are handles or made models. So nothing that is registered can be taken for an
operation, a path or a handle. -/

namespace ApiGraph

open Resolving Registry

/-- A link as a resolution leaves it: a handle of a kind of handles, or a model that was made. -/
def Link.Proper : Link Model → Prop
  | .ref r => r.kind.isRef = true
  | .model m => m.Made

/-- All links are proper, those inside of models included. -/
def AllProper (links : List (Link Model)) : Prop := ∀ l : Link Model, l.Within links → l.Proper

/-- No name has two models, all registered models are made, and all links inside of them are
proper. -/
def Registry.Proper (r : Registry) : Prop :=
  (Dict.keys r.models).Nodup ∧ ∀ x ∈ r.models, x.2.Made ∧ AllProper x.2.inner

variable {document : Json} {r s : Registry} {links more : List (Link Model)} {m : Model} {ref : Ref}
  {p q : Progress} {scope : Scope}

namespace AllProper

theorem nil : AllProper [] := fun _ h => absurd h Link.not_within_nil

theorem sub (h : AllProper links) (hs : more ⊆ links) : AllProper more := fun l hl => h l (hl.sub hs)

theorem append (h₁ : AllProper links) (h₂ : AllProper more) : AllProper (links ++ more) :=
  fun l hl => (Link.within_append.1 hl).elim (h₁ l) (h₂ l)

theorem ref_iff : AllProper [.ref ref] ↔ ref.kind.isRef = true := by
  constructor
  · intro h
    exact h (.ref ref) (Link.within_ref.2 rfl)
  · rintro h l hl
    obtain rfl := Link.within_ref.1 hl
    exact h

theorem model_iff : AllProper [.model m] ↔ m.Made ∧ AllProper m.inner := by
  constructor
  · intro h
    exact ⟨h _ (Link.within_model.2 (Or.inl rfl)), fun l hl => h l (Link.within_model.2 (Or.inr hl))⟩
  · rintro ⟨hm, hi⟩ l hl
    obtain rfl | hl := Link.within_model.1 hl
    · exact hm
    · exact hi l hl

theorem inner {link : Link Model} (h : AllProper [link]) : AllProper link.inner :=
  fun l hl => h l hl.of_inner

end AllProper

namespace Registry

namespace Proper

theorem of_lookup (h : r.Proper) {name : String} (hm : r.models.lookup name = some m) :
    AllProper [.model m] := AllProper.model_iff.2 (h.2 _ (Dict.mem_of_lookup hm))

/-- What is registered stays proper, and what is found is a handle. -/
theorem assert {raw : Json} {parsed : Link Model} {hint : Option String} {space : KeySpace}
    {location : String} {found : Resolved} (h : r.Proper) (hp : AllProper [parsed])
    (ha : r.assert raw parsed hint space location = .ok (found, s)) :
    s.Proper ∧ AllProper [.ref found.ref] := by
  refine ⟨?_, AllProper.ref_iff.2 ?_⟩
  · obtain rfl | ⟨m, rfl, hm⟩ := assert_cases ha
    · exact h
    have hc := register_models (r := r) space (keyFor space raw m hint) m
    rw [hm] at hc
    obtain ⟨made, inner⟩ := AllProper.model_iff.1 hp
    unfold Proper
    obtain hs | ⟨name, hs⟩ := hc
    · rw [hs]
      exact h
    · rw [hs]
      refine ⟨Dict.nodup_keys_put _ _ h.1, fun x hx => ?_⟩
      obtain hx | rfl := Dict.mem_put hx
      · exact h.2 x hx
      · exact ⟨made.of_eq rfl rfl, inner⟩
  · obtain ⟨hr, -⟩ | ⟨name, m, rfl, -⟩ := assert_found ha
    · rw [Kind.isRef, eq_of_beq hr]
      rfl
    · rfl

end Proper

end Registry

/-- The resolution of nodes makes proper models only. -/
def making (document : Json) : Traversal document where
  node _ _ r out s := r.Proper → s.Proper ∧ AllProper (out.result :: out.needs)
  parts _ r links _ s := r.Proper → s.Proper ∧ AllProper links
  handle r _ ref s := r.Proper → s.Proper ∧ AllProper [.ref ref]
  nothing h := ⟨h, .nil⟩
  append first rest h := by
    obtain ⟨hs, hl⟩ := first h
    obtain ⟨ht, hm⟩ := rest hs
    exact ⟨ht, hl.append hm⟩
  weaken whole sub _ h := ⟨(whole h).1, (whole h).2.sub sub⟩
  member {name wanted scope required v r s out fs} _ _ resolved h := by
    obtain ⟨hs, hl⟩ := resolved h
    refine ⟨?_, hl⟩
    cases ho : out.result <;> exact hs
  item _ resolved h := ⟨(resolved h).1, (resolved h).2.sub (List.subset_cons_self _ _)⟩
  reference resolved := resolved
  inner _ _ _ resolved h := ⟨(resolved h).1, AllProper.inner ((resolved h).2.sub (by simp))⟩
  content _ _ _ _ _ resolved registered h := by
    obtain ⟨hs, hl⟩ := resolved h
    exact hs.assert (hl.sub (by simp)) registered
  gathered {r t scope refs ms m found fs} models dependencies branches made _ _ registered h := by
    refine h.assert (AllProper.model_iff.2 ⟨made, ?_⟩) registered
    rw [Model.inner, branches, List.append_nil, dependencies]
    intro l hl
    obtain ⟨k, hk, hl⟩ := Link.within_flatMap.1 hl
    obtain ⟨name, hn⟩ := gathered_registered models k hk
    have inner := (AllProper.model_iff.1 (h.of_lookup hn)).2
    exact inner l (hl.sub (List.subset_append_left _ _))
  model resolved _ made _ _ _ dependencies branches passed _ _ _ h := by
    obtain ⟨hs, hl⟩ := resolved h
    have inner : AllProper (Link.model _).inner :=
      hl.sub (List.append_subset.2 ⟨dependencies, branches⟩)
    exact ⟨hs, (AllProper.model_iff.2 ⟨made, inner⟩).append (hl.sub passed)⟩
  refers _ resolved := resolved
  known _ _ hf h := by
    obtain ⟨name, rfl, -⟩ := findStructural_eq_some hf
    exact ⟨h, AllProper.ref_iff.2 rfl⟩
  remote _ h := ⟨h, AllProper.ref_iff.2 rfl⟩
  declared _ hk h := by
    obtain ⟨name, rfl, -⟩ := lookupRef_eq_some hk
    exact ⟨h, AllProper.ref_iff.2 rfl⟩
  followed {r r' s text target reserved ref scope out} new _ reserves resolved ho h := by
    rw [reserve_new (lookupRef_eq_none new).1] at reserves
    obtain ⟨-, rfl⟩ := Prod.mk.inj reserves
    obtain ⟨hs, hl⟩ := resolved h
    rw [ho] at hl
    refine ⟨?_, hl.sub (by simp)⟩
    split <;> exact hs
  registered {r r' s t text location target reserved scope out m found} new _ reserves resolved ho
      registers h := by
    rw [reserve_new (lookupRef_eq_none new).1] at reserves
    obtain ⟨-, rfl⟩ := Prod.mk.inj reserves
    obtain ⟨hs, hl⟩ := resolved h
    rw [ho] at hl
    exact hs.assert (hl.sub (by simp)) registers

/-- The model of an alias is made from that of its target. -/
theorem proper_aliasModel {e : Component.Entry} {name location : String} (hr : r.Proper)
    (he : e.node.isObject = true) (h : Component.aliasModel r e name location ref = some m) :
    AllProper [.model m] := by
  obtain ⟨remote, rfl⟩ | ⟨known, k, hk, rfl⟩ := Component.aliasModel_cases h
  · refine AllProper.model_iff.2 ⟨⟨rfl, Or.inr he⟩, AllProper.ref_iff.2 ?_⟩
    rw [Kind.isRef, eq_of_beq remote]
    rfl
  · obtain ⟨made, inner⟩ := AllProper.model_iff.1 (hr.of_lookup hk)
    exact AllProper.model_iff.2 ⟨made.of_eq rfl rfl, inner⟩

theorem proper_collect (hp : p.registry = .empty)
    (h : Runs (Component.collect document (resolveNode document) scope) p () q) :
    q.registry.Proper := by
  obtain ⟨⟨links, hr, -⟩, -⟩ := Component.collect_induction (making document)
    (I := fun links r => r.Proper ∧ AllProper links)
    ⟨by simp [Registry.Proper, Component.base_models, Dict.keys], .nil⟩
    (fun links r s _ hl hi => hl hi.1)
    (fun links e m r s location found _ he _ hs hi ha =>
      ⟨(hi.1.assert (AllProper.model_iff.2 ⟨he.made, hi.2.sub hs⟩) ha).1, hi.2⟩)
    (fun links e ref m r s location found _ he _ hm hi ha =>
      ⟨(hi.1.assert (proper_aliasModel hi.1 he.isObject hm) ha).1, hi.2⟩)
    hp h
  exact hr

/-- The registered models of an accepted document are made, and so is all that they embed. -/
theorem Graph.Accepts.proper {τ : Type} {g g' : Graph τ} (h : Graph.Accepts g document g') :
    g'.registry.Proper := by
  obtain ⟨s, t, walked, hc, hp, hr, -⟩ := h.walked
  have paths : (making document).Leaves s.registry _ t.registry := Traversal.resolvePaths hp
  rw [hr]
  exact (paths (proper_collect rfl hc)).1

end ApiGraph
