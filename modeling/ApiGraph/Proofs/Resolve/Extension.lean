import ApiGraph.Proofs.Registry.History
import ApiGraph.Proofs.Resolve.Traversal.Walk

/-! What a resolution does to the registry as a whole: the tables agree afterwards, nothing is
taken back, and only keys that were new are redirected. -/

namespace ApiGraph

open Resolving

namespace Registry

variable {R : String → Prop} {r s t : Registry}

/-- The tables agree, and every key without a name may be redirected. -/
def Sound (R : String → Prop) (r : Registry) : Prop :=
  Coherent R r ∧ ∀ key, r.named.lookup key = none → R key

/-- Whether a key has no name yet. -/
def New (r : Registry) (key : String) : Prop := r.named.lookup key = none

/-- A registry comes from another one: what the other knew is known, and the tables agree. -/
def Extends (R : String → Prop) (r s : Registry) : Prop :=
  r.Sound R → s.Sound R ∧ Grows r.New r s

/-- A key that has a name is not new, so that growth with new keys only is growth throughout. -/
theorem Grows.of_new {P : String → Prop} (h : Grows r.New r s) : Grows P r s :=
  ⟨h.models, h.taken, h.key, fun _ hl => h.name (fun hn => by simp [New, hl] at hn) hl, h.content⟩

theorem Extends.refl (r : Registry) : Extends R r r := fun h => ⟨h, .refl r⟩

theorem Extends.trans (h₁ : Extends R r s) (h₂ : Extends R s t) : Extends R r t := by
  intro h
  obtain ⟨hs, g₁⟩ := h₁ h
  obtain ⟨ht, g₂⟩ := h₂ hs
  exact ⟨ht, g₁.trans g₂.of_new⟩

theorem Sound.of_grows {P : String → Prop} (h : r.Sound R) (hc : Coherent R s) (g : Grows P r s) :
    s.Sound R :=
  ⟨hc, fun key hk => h.2 key (by
    by_contra hn
    exact g.key hn hk)⟩

/-- A change that redirects no key extends the registry. -/
theorem extends_of_effect (h : Coherent R r → ∀ P : String → Prop, Effect P r s) : Extends R r s := by
  intro hr
  have g : Grows r.New r s := hr.1.grows (h hr.1 _)
  exact ⟨hr.of_grows (hr.1.step (h hr.1 R)) g, g⟩

theorem extends_claim (r : Registry) (name : String) : Extends R r (r.claim name).2 :=
  extends_of_effect fun _ _ => .claimed _ (freeName_not_mem r name)

theorem extends_claimed (r : Registry) (link : Link Model) : Extends R r (r.claimed link) := by
  cases link with
  | ref _ => exact .refl r
  | model m => exact extends_claim r m.name

theorem extends_reserve (r : Registry) (key name : String) : Extends R r (r.reserve key name).2 :=
  extends_of_effect fun _ _ => reserve_effect r key name

theorem extends_reserved {key name : String} {ref : Ref} (h : r.reserve key name = (ref, s)) :
    Extends R r s := by
  have e : Extends R r _ := extends_reserve r key name
  rwa [h] at e

theorem extends_assert {raw : Json} {parsed : Link Model} {hint : Option String} {space : KeySpace}
    {location : String} {found : Resolved}
    (h : r.assert raw parsed hint space location = .ok (found, s)) : Extends R r s := by
  refine extends_of_effect fun hc P => ?_
  obtain rfl | ⟨m, -, hm⟩ := assert_cases h
  · exact .same
  · have he : Effect P r _ := register_effect hc.model_of_content space (keyFor space raw m hint) m
    rwa [hm] at he

theorem extends_gather {scope : Scope} {refs : List Ref} {ref? : Option Ref} {name : String}
    {p q : Progress} (h : Runs (Parameter.gather scope refs name) p ref? q) :
    p.registry.Extends R q.registry := by
  obtain ⟨-, rfl, -⟩ | ⟨_, _, _, _, -, -, -, ha, -, rfl⟩ := Parameter.gather_cases h
  · exact .refl _
  · exact extends_assert ha

theorem resolve_found {key : String} {found : Resolved} (h : r.resolve key = some found) :
    ∃ name m, found = ⟨.named name, some m⟩ ∧ r.models.lookup name = some m := by
  simp only [resolve, Option.map_eq_some_iff] at h
  obtain ⟨m, hm, rfl⟩ := h
  exact ⟨_, m, rfl, hm⟩

/-- What is resolved is the name of a model, or else a key that has this name. -/
theorem resolve_name {key name : String} {m? : Option Model}
    (h : r.resolve key = some ⟨.named name, m?⟩) :
    name = key ∨ (r.contains key = false ∧ r.named.lookup key = some name) := by
  unfold resolve at h
  obtain ⟨_, -, same⟩ := Option.map_eq_some_iff.1 h
  have same : (if r.contains key then key else (r.named.lookup key).getD key) = name :=
    congrArg (Ref.name ∘ Resolved.ref) same
  split at same
  · exact .inl same.symm
  · next pending =>
    cases hn : r.named.lookup key with
    | none =>
      rw [hn] at same
      exact .inl same.symm
    | some n =>
      rw [hn] at same
      exact .inr ⟨by simpa using pending, congrArg some same⟩

/-- A handle that stays in the document leads to a registered model. -/
theorem requireRef_model {ref : Ref} {location : String} {found : Resolved}
    (h : r.requireRef ref location = .ok found) (here : ref.isRemote = false) :
    ∃ name m, r.resolve ref.name = some found ∧ found = ⟨.named name, some m⟩ ∧
      r.models.lookup name = some m := by
  unfold requireRef resolveRef at h
  rw [here] at h
  cases hr : r.resolve ref.name with
  | none =>
    rw [hr] at h
    cases h
  | some known =>
    rw [hr] at h
    obtain rfl := Except.ok.inj h
    obtain ⟨name, m, rfl, hm⟩ := resolve_found hr
    exact ⟨name, m, rfl, rfl, hm⟩

/-- What is gathered are registered models. -/
theorem gathered_registered {location : String} {refs : List Ref} {ms : List Model}
    (h : Parameter.Gathered r location refs ms) : ∀ m ∈ ms, ∃ name, r.models.lookup name = some m := by
  induction h with
  | nil => simp
  | @cons ref rest found m ms known model more ih =>
    intro k hk
    rcases List.mem_cons.1 hk with rfl | hk
    · unfold requireRef at known
      split at known
      · next hf =>
        cases known
        unfold resolveRef at hf
        split at hf
        · cases hf
          cases model
        · obtain ⟨name, m, rfl, hl⟩ := resolve_found hf
          cases model
          exact ⟨name, hl⟩
      · cases known
    · exact ih k hk

/-- A registration changes nothing, or a model enters under a name. -/
theorem register_models (space : KeySpace) (key : String) (m : Model) :
    (r.register space key m).2.models = r.models ∨ ∃ name,
      (r.register space key m).2.models = Dict.put r.models name (entitled m name) := by
  unfold register
  split
  · split
    · exact Or.inl rfl
    · exact Or.inr ⟨_, rfl⟩
  · refine Or.inr ⟨(r.claim m.name).1, ?_⟩
    cases space <;> rfl

theorem register_found (space : KeySpace) (key : String) (m : Model) :
    ∃ name k, (r.register space key m).1 = ⟨.named name, some k⟩ ∧
      (r.register space key m).2.models.lookup name = some k := by
  unfold register
  split
  · split
    · next hl => exact ⟨_, _, rfl, hl⟩
    · exact ⟨_, _, rfl, Dict.lookup_put_self _ _ _⟩
  · exact ⟨_, _, rfl, Dict.lookup_put_self _ _ _⟩

/-- A registration finds the name of its key, or gives it one. -/
theorem register_indexed {space : KeySpace} {key : String} {m : Model} {found : Resolved}
    (h : r.register space key m = (found, s)) :
    ∃ name, found.ref = .named name ∧ s.indexed space key = some name := by
  unfold register at h
  cases hl : r.indexed space key with
  | some known =>
    simp only [hl] at h
    split at h <;> obtain ⟨rfl, rfl⟩ := Prod.mk.inj h
    · exact ⟨known, rfl, hl⟩
    · cases space <;> exact ⟨known, rfl, hl⟩
  | none =>
    simp only [hl] at h
    obtain ⟨rfl, rfl⟩ := Prod.mk.inj h
    cases space <;> exact ⟨_, rfl, Dict.lookup_put_self _ _ _⟩

/-- A registration finds a model or enters one: under the name that its key has, or under a new
name. -/
theorem register_cases (hc : Coherent R r) (space : KeySpace) (key : String) (m : Model) :
    (r.register space key m).2 = r ∨ ∃ name,
      (r.register space key m).2.models = Dict.put r.models name (entitled m name) ∧
      r.contains name = false ∧
      (∀ k n, (r.register space key m).2.named.lookup k = some n →
        n = name ∨ r.named.lookup k = some n) ∧
      ((r.named.lookup key = some name ∧ (r.register space key m).2.taken = r.taken) ∨
        (name = r.freeName m.name ∧ (r.register space key m).2.taken = name :: r.taken)) := by
  unfold register
  split
  · next name hi =>
    split
    · exact Or.inl rfl
    · next hn =>
      have hf := contains_eq_false_iff.2 hn
      cases space with
      | named => exact Or.inr ⟨name, rfl, hf, fun k n => Or.inr, Or.inl ⟨hi, rfl⟩⟩
      | structural => simp [hc.model_of_content hi] at hf
  · next hi =>
    have hf := hc.not_contains (freeName_not_mem r m.name)
    cases space with
    | named =>
      refine Or.inr ⟨_, rfl, hf, fun k n hk => ?_, Or.inr ⟨rfl, rfl⟩⟩
      rcases lookup_put_cases hk with ⟨-, rfl⟩ | hk
      · exact Or.inl rfl
      · exact Or.inr hk
    | structural => exact Or.inr ⟨_, rfl, hf, fun k n => Or.inr, Or.inr ⟨rfl, rfl⟩⟩

/-- A model that is registered for a key whose name is known gets that name. -/
theorem register_ref {space : KeySpace} {key name : String} (h : r.indexed space key = some name)
    (m : Model) : (r.register space key m).1.ref = .named name := by
  unfold register
  rw [h]
  dsimp only
  split <;> rfl

/-- A key that has a name has a model under it once one was registered for the key. -/
theorem contains_of_register {key name : String} (h : r.named.lookup key = some name) (m : Model) :
    (r.register .named key m).2.contains name = true := by
  unfold register indexed
  rw [h]
  dsimp only
  split
  · next hl => exact contains_iff.2 ⟨_, hl⟩
  · exact (contains_put rfl).2 (Or.inl rfl)

/-- What a registration finds is a registered model, or leads out of the document. -/
theorem assert_found {raw : Json} {parsed : Link Model} {hint : Option String} {space : KeySpace}
    {location : String} {found : Resolved}
    (h : r.assert raw parsed hint space location = .ok (found, s)) :
    (found.ref.isRemote = true ∧ found.model = none) ∨
      ∃ name m, found = ⟨.named name, some m⟩ ∧ s.models.lookup name = some m := by
  have required {key : String} {found : Resolved}
      (h : (r.require key location).map (·, r) = .ok (found, s)) :
      ∃ name m, found = ⟨.named name, some m⟩ ∧ s.models.lookup name = some m := by
    unfold require at h
    split at h
    · next hf =>
      simp only [Except.map, Except.ok.injEq, Prod.mk.injEq] at h
      obtain ⟨rfl, rfl⟩ := h
      exact resolve_found hf
    · simp [Except.map] at h
  cases parsed with
  | ref ref =>
    simp only [assert, requireRef, resolveRef] at h
    by_cases hr : ref.isRemote = true
    · simp only [hr, if_true, Except.map, Except.ok.injEq, Prod.mk.injEq] at h
      exact Or.inl (h.1 ▸ ⟨hr, rfl⟩)
    · simp only [hr, Bool.false_eq_true, if_false] at h
      exact Or.inr (required h)
  | model m =>
    simp only [assert] at h
    split at h
    · split at h
      · exact Or.inr (required h)
      · simp only [Except.ok.injEq, Prod.mk.injEq] at h
        exact Or.inl (h.1 ▸ ⟨rfl, rfl⟩)
    · obtain ⟨name, k, hf, hl⟩ := register_found (r := r) space (keyFor space raw m hint) m
      rw [Except.ok.inj h] at hf hl
      exact Or.inr ⟨name, k, hf, hl⟩

/-- A model that was resolved from a node without a reference is registered as such. -/
theorem assert_model {raw : Json} {m : Model} {hint : Option String} {space : KeySpace}
    {location : String} {found : Resolved} (plain : raw.has "$ref" = false)
    (h : r.assert raw (.model m) hint space location = .ok (found, s)) :
    r.register space (keyFor space raw m hint) m = (found, s) := by
  have hn : raw.get? "$ref" = none := by simpa [Json.has] using plain
  simp only [assert, hn] at h
  exact Except.ok.inj h

/-- A handle is looked up, and nothing is registered for it. -/
theorem assert_ref {raw : Json} {ref : Ref} {hint : Option String} {space : KeySpace}
    {location : String} {found : Resolved}
    (h : r.assert raw (.ref ref) hint space location = .ok (found, s)) :
    s = r ∧ r.requireRef ref location = .ok found := by
  simp only [assert, Except.map] at h
  split at h
  · cases h
  · next known hk =>
    cases h
    exact ⟨rfl, hk⟩

theorem lookupRef_eq_none {key : String} (h : r.lookupRef key = none) :
    r.named.lookup key = none ∧ r.contains key = false := by
  unfold lookupRef at h
  split at h
  · cases h
  · next hn =>
    split at h
    · cases h
    · next hc => exact ⟨hn, by simpa using hc⟩

theorem lookupRef_eq_some {key : String} {ref : Ref} (h : r.lookupRef key = some ref) :
    ∃ name, ref = .named name ∧
      (r.named.lookup key = some name ∨ (name = key ∧ r.contains key = true)) := by
  unfold lookupRef at h
  split at h
  · next name hn => exact ⟨name, (Option.some.inj h).symm, Or.inl hn⟩
  · split at h
    · next hc => exact ⟨key, (Option.some.inj h).symm, Or.inr ⟨rfl, hc⟩⟩
    · cases h

theorem findStructural_eq_some {node : Json} {ref : Ref} (h : r.findStructural node = some ref) :
    ∃ name, ref = .named name ∧ r.structural.lookup node.canonical = some name ∧
      r.contains name = true := by
  unfold findStructural at h
  split at h
  · next name hn =>
    split at h
    · next hc => exact ⟨name, (Option.some.inj h).symm, hn, hc⟩
    · cases h
  · cases h

theorem reserve_new {key name : String} (h : r.named.lookup key = none) :
    r.reserve key name = (.named (r.freeName name),
      { r with
        taken := r.freeName name :: r.taken
        named := Dict.put r.named key (r.freeName name) }) := by
  simp [reserve, h, claim]

variable {P : String → Prop}

theorem Grows.lookup {name : String} {m : Model} (g : Grows P r s) (h : r.models.lookup name = some m) :
    s.models.lookup name = some m := by
  obtain ⟨rest, hs⟩ := g.models
  rw [← hs, List.lookup_append, h]
  rfl

theorem Grows.contains {name : String} (g : Grows P r s) (h : r.contains name = true) :
    s.contains name = true := by
  obtain ⟨m, hm⟩ := contains_iff.1 h
  exact contains_iff.2 ⟨m, g.lookup hm⟩

theorem grows_redirect (r : Registry) (key target : String) :
    Grows (· = key) r (r.redirect key target) := by
  refine ⟨List.prefix_refl _, List.Subset.refl _, lookup_put_ne_none, fun hk hl => ?_, id⟩
  rw [redirect, Dict.lookup_put_of_ne _ _ (by simpa using hk)]
  exact hl

theorem grows_reserve {key wanted : String} (new : r.named.lookup key = none) :
    Grows P r (r.reserve key wanted).2 := by
  rw [reserve_new new]
  exact ⟨List.prefix_refl _, List.subset_cons_self _ _, lookup_put_ne_none,
    fun _ => lookup_put_new new, id⟩

end Registry

/-- A handle that stays in the document has a taken name. -/
def Link.IsTaken (r : Registry) (link : Link Model) : Prop :=
  ∀ ref, link = .ref ref → ref.isRemote = false → ref.name ∈ r.taken

open Registry in
/-- The resolution of nodes extends the registry. -/
def extension (document : Json) (R : String → Prop) : Traversal document where
  node _ _ r out s := r.Extends R s ∧ (r.Sound R → out.result.IsTaken s)
  parts _ r _ _ s := r.Extends R s
  handle r _ ref s := r.Extends R s ∧ (r.Sound R → (Link.ref ref).IsTaken s)
  nothing := .refl _
  append := .trans
  weaken h _ _ := h
  member _ _ h := h.1.trans (extends_claimed _ _)
  item _ h := h.1
  reference h := h.1
  inner _ _ _ h := h.1
  content _ _ _ _ _ h ha := h.1.trans (extends_assert ha)
  gathered _ _ _ _ _ _ ha := extends_assert ha
  model h _ _ _ _ _ _ _ _ _ _ _ := ⟨h, fun _ _ he => by cases he⟩
  refers _ h := h
  known _ _ hf := by
    obtain ⟨name, rfl, -, hc⟩ := findStructural_eq_some hf
    refine ⟨.refl _, fun h _ he _ => ?_⟩
    cases he
    exact h.1.taken_of_model hc
  remote _ := ⟨.refl _, fun _ _ he hr => by cases he; cases hr⟩
  declared _ hk := by
    obtain ⟨name, rfl, hn⟩ := lookupRef_eq_some hk
    refine ⟨.refl _, fun h _ he _ => ?_⟩
    cases he
    rcases hn with hn | ⟨rfl, hc⟩
    · exact h.1.taken_of_key hn
    · exact h.1.taken_of_model hc
  followed {r r' s text target reserved ref scope out} new _ hr h ho := by
    have e : r.Extends R s := (extends_reserved hr).trans h.1
    have taken (hs : r.Sound R) : (Link.ref ref).IsTaken s :=
      ho ▸ h.2 (extends_reserved hr hs).1
    by_cases hrem : ref.isRemote = true
    · rw [if_pos hrem]
      exact ⟨e, taken⟩
    rw [if_neg hrem]
    have hk := (lookupRef_eq_none new).1
    refine ⟨fun hs => ?_, fun hs ref he hl => taken hs ref he hl⟩
    obtain ⟨hss, g⟩ := e hs
    have effect (P : String → Prop) (hp : P text) : Effect P s (s.redirect text ref.name) :=
      .redirected _ _ hp (taken hs ref rfl (by simpa using hrem))
    have g' : Grows r.New s (s.redirect text ref.name) := hss.1.grows (effect r.New hk)
    exact ⟨hss.of_grows (hss.1.step (effect R (hs.2 _ hk))) g', g.trans g'⟩
  registered {r r' s t text location target reserved scope out m found} _ _ hr h _ ha := by
    have e : r.Extends R t := ((extends_reserved hr).trans h.1).trans (extends_assert ha)
    refine ⟨e, fun hs ref he hl => ?_⟩
    cases he
    rcases assert_found ha with ⟨hrem, -⟩ | ⟨name, k, rfl, hm⟩
    · rw [hl] at hrem
      cases hrem
    · exact (e hs).1.1.taken_of_model (contains_iff.2 ⟨k, hm⟩)

end ApiGraph
