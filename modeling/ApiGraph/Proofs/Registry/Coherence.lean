import ApiGraph.Proofs.FreeVariant
import Mathlib.Logic.Relation

/-! The four tables of the registry agree. What one call can do to them is said once, as an
`Effect`; that the tables agree is kept by each effect, so it holds after every sequence of
calls. Keys that callers may redirect are a parameter, because only for the other keys a name
stays apart from the names of contents. -/

namespace ApiGraph.Registry

/-- A call that may change the names of a run. -/
inductive Call where
  | reserve (key name : String)
  | claim (name : String)
  | redirect (key name : String)
  | assert (raw : Json) (parsed : Link Model) (hint : Option String) (space : KeySpace)
      (location : String)

/-- The registry after a call. One that fails leaves it as it was. -/
def after (r : Registry) : Call → Registry
  | .reserve key name => (r.reserve key name).2
  | .claim name => (r.claim name).2
  | .redirect key name => r.redirect key name
  | .assert raw parsed hint space location =>
    match r.assert raw parsed hint space location with
    | .ok (_, s) => s
    | .error _ => r

/-- Callers redirect a key only to a name that is taken, and only some keys. -/
def Allowed (redirectable : String → Prop) (r : Registry) (c : Call) : Prop :=
  ∀ key name, c = .redirect key name → redirectable key ∧ name ∈ r.taken

/-- The tables agree with each other, and names of contents are apart from the names of keys that
are not redirected. -/
structure Coherent (redirectable : String → Prop) (r : Registry) : Prop where
  name_of_model : ∀ {name m}, r.models.lookup name = some m → m.name = name
  taken_of_model : ∀ {name}, r.contains name = true → name ∈ r.taken
  taken_of_key : ∀ {key name}, r.named.lookup key = some name → name ∈ r.taken
  taken_of_content : ∀ {content name}, r.structural.lookup content = some name → name ∈ r.taken
  model_of_content : ∀ {content name},
    r.structural.lookup content = some name → r.contains name = true
  content_unique : ∀ {c₁ c₂ name},
    r.structural.lookup c₁ = some name → r.structural.lookup c₂ = some name → c₁ = c₂
  apart : ∀ {key name content}, ¬ redirectable key →
    r.named.lookup key = some name → r.structural.lookup content ≠ some name

/-- What a call can do to a registry whose contents all have models. -/
inductive Effect (redirectable : String → Prop) (r : Registry) : Registry → Prop
  | same : Effect redirectable r r
  | claimed (name : String) (fresh : name ∉ r.taken) :
    Effect redirectable r { r with taken := name :: r.taken }
  | reserved (key name : String) (new : r.named.lookup key = none) (fresh : name ∉ r.taken) :
    Effect redirectable r
      { r with taken := name :: r.taken, named := Dict.put r.named key name }
  | redirected (key name : String) (may : redirectable key) (taken : name ∈ r.taken) :
    Effect redirectable r { r with named := Dict.put r.named key name }
  | fulfilled (key name : String) (m : Model) (known : r.named.lookup key = some name)
    (missing : r.contains name = false) :
    Effect redirectable r { r with models := Dict.put r.models name (entitled m name) }
  | declared (key name : String) (m : Model) (new : r.named.lookup key = none)
    (fresh : name ∉ r.taken) :
    Effect redirectable r
      { r with
        taken := name :: r.taken
        named := Dict.put r.named key name
        models := Dict.put r.models name (entitled m name) }
  | indexed (content name : String) (m : Model) (new : r.structural.lookup content = none)
    (fresh : name ∉ r.taken) :
    Effect redirectable r
      { r with
        taken := name :: r.taken
        structural := Dict.put r.structural content name
        models := Dict.put r.models name (entitled m name) }

variable {redirectable : String → Prop} {r s : Registry}

theorem contains_iff {name : String} : r.contains name = true ↔ ∃ m, r.models.lookup name = some m := by
  simp [contains, Dict.has, Option.isSome_iff_exists]

theorem contains_eq_false_iff {name : String} :
    r.contains name = false ↔ r.models.lookup name = none := by
  simp [contains, Dict.has]

theorem reserve_effect (r : Registry) (key name : String) :
    Effect redirectable r (r.reserve key name).2 := by
  unfold reserve
  split
  · exact .same
  · next hk => exact .reserved key _ hk (freeName_not_mem r name)

theorem register_effect (hc : ∀ {content name},
      r.structural.lookup content = some name → r.contains name = true)
    (space : KeySpace) (key : String) (m : Model) :
    Effect redirectable r (r.register space key m).2 := by
  unfold register
  split
  · next name hi =>
    split
    · exact .same
    · next hn =>
      have hf := contains_eq_false_iff.2 hn
      cases space with
      | named => exact .fulfilled key name m hi hf
      | structural => simp [hc hi] at hf
  · next hi =>
    cases space with
    | named => exact .declared key _ m hi (freeName_not_mem r m.name)
    | structural => exact .indexed key _ m hi (freeName_not_mem r m.name)

/-- A successful registration finds a model, or changes the registry as a model does. -/
theorem assert_cases {raw : Json} {parsed : Link Model} {hint : Option String} {space : KeySpace}
    {location : String} {found : Resolved}
    (h : r.assert raw parsed hint space location = .ok (found, s)) :
    s = r ∨ ∃ m, parsed = .model m ∧ r.register space (keyFor space raw m hint) m = (found, s) := by
  cases parsed with
  | ref ref =>
    cases hr : r.requireRef ref location with
    | error f => simp [assert, hr, Except.map] at h
    | ok x =>
      simp only [assert, hr, Except.map, Except.ok.injEq, Prod.mk.injEq] at h
      exact Or.inl h.2.symm
  | model m =>
    simp only [assert] at h
    split at h
    · next ref _ =>
      split at h
      · cases hr : r.require ref location with
        | error f => simp [hr, Except.map] at h
        | ok x =>
          simp only [hr, Except.map, Except.ok.injEq, Prod.mk.injEq] at h
          exact Or.inl h.2.symm
      · simp only [Except.ok.injEq, Prod.mk.injEq] at h
        exact Or.inl h.2.symm
    · exact Or.inr ⟨m, rfl, Except.ok.inj h⟩

theorem after_effect (hc : ∀ {content name},
      r.structural.lookup content = some name → r.contains name = true)
    {c : Call} (ha : Allowed redirectable r c) : Effect redirectable r (r.after c) := by
  cases c with
  | reserve key name => exact reserve_effect r key name
  | claim name => exact .claimed _ (freeName_not_mem r name)
  | redirect key name =>
    obtain ⟨hk, hn⟩ := ha key name rfl
    exact .redirected key name hk hn
  | assert raw parsed hint space location =>
    cases h : r.assert raw parsed hint space location with
    | error f => simpa [after, h] using Effect.same
    | ok x =>
      obtain ⟨found, s⟩ := x
      simp only [after, h]
      obtain rfl | ⟨m, -, hm⟩ := assert_cases h
      · exact .same
      · have he : Effect redirectable r _ := register_effect hc space (keyFor space raw m hint) m
        rwa [hm] at he

/-- What no call takes back: models, taken names, and the names of keys and contents. -/
structure Grows (redirectable : String → Prop) (r s : Registry) : Prop where
  models : r.models <+: s.models
  taken : r.taken ⊆ s.taken
  key : ∀ {key}, r.named.lookup key ≠ none → s.named.lookup key ≠ none
  name : ∀ {key name}, ¬ redirectable key →
    r.named.lookup key = some name → s.named.lookup key = some name
  content : ∀ {content name},
    r.structural.lookup content = some name → s.structural.lookup content = some name

theorem Grows.refl (r : Registry) : Grows redirectable r r :=
  ⟨List.prefix_refl _, List.Subset.refl _, id, fun _ => id, id⟩

theorem Grows.trans {t : Registry} (h₁ : Grows redirectable r s) (h₂ : Grows redirectable s t) :
    Grows redirectable r t :=
  ⟨h₁.models.trans h₂.models, List.Subset.trans h₁.taken h₂.taken, fun h => h₂.key (h₁.key h),
    fun hk h => h₂.name hk (h₁.name hk h), fun h => h₂.content (h₁.content h)⟩

theorem lookup_put_new {d : Dict String α} {key k : String} {name v : α}
    (new : d.lookup key = none) (h : d.lookup k = some v) :
    (Dict.put d key name).lookup k = some v := by
  rwa [Dict.lookup_put_of_ne]
  by_contra hk
  rw [eq_of_beq (by simpa using hk : (k == key) = true), new] at h
  cases h

theorem lookup_put_ne_none {d : Dict String α} {key k : String} {v : α}
    (h : d.lookup k ≠ none) : (Dict.put d key v).lookup k ≠ none := by
  by_cases hk : (k == key) = true
  · simp [eq_of_beq hk]
  · rwa [Dict.lookup_put_of_ne _ _ (by simpa using hk)]

/-- An entry that was put is the new one or an old one. -/
theorem lookup_put_cases {d : Dict String α} {key k : String} {v w : α}
    (h : (Dict.put d key v).lookup k = some w) : (k = key ∧ w = v) ∨ d.lookup k = some w := by
  by_cases hk : (k == key) = true
  · obtain rfl := eq_of_beq hk
    rw [Dict.lookup_put_self] at h
    exact Or.inl ⟨rfl, (Option.some.inj h).symm⟩
  · rw [Dict.lookup_put_of_ne _ _ (by simpa using hk)] at h
    exact Or.inr h

theorem contains_put {name k : String} {m : Model} {t : Registry}
    (ht : t.models = Dict.put r.models name m) :
    t.contains k = true ↔ k = name ∨ r.contains k = true := by
  rw [contains, ht, contains, ← Dict.mem_keys_iff_has, Dict.mem_keys_put, Dict.mem_keys_iff_has,
    or_comm]

theorem prefix_put {name : String} {m : Model} (h : r.contains name = false) :
    r.models <+: Dict.put r.models name m := by
  rw [Dict.put_of_not_has _ _ _ h]
  exact List.prefix_append _ _

namespace Coherent

theorem not_contains (h : Coherent redirectable r) {name : String} (fresh : name ∉ r.taken) :
    r.contains name = false := by
  by_contra hn
  exact fresh (h.taken_of_model (by simpa using hn))

theorem grows {R : String → Prop} (h : Coherent R r) (he : Effect redirectable r s) :
    Grows redirectable r s := by
  have taken (name : String) : r.taken ⊆ name :: r.taken := List.subset_cons_self _ _
  cases he with
  | same => exact .refl r
  | claimed name fresh => exact ⟨List.prefix_refl _, taken name, id, fun _ => id, id⟩
  | reserved key name new fresh =>
    exact ⟨List.prefix_refl _, taken name, lookup_put_ne_none, fun _ => lookup_put_new new, id⟩
  | redirected key name may _ =>
    refine ⟨List.prefix_refl _, List.Subset.refl _, lookup_put_ne_none, fun hk hl => ?_, id⟩
    rwa [Dict.lookup_put_of_ne]
    by_contra he
    exact hk (eq_of_beq (by simpa using he : (_ == key) = true) ▸ may)
  | fulfilled key name m _ missing =>
    exact ⟨prefix_put missing, List.Subset.refl _, id, fun _ => id, id⟩
  | declared key name m new fresh =>
    exact ⟨prefix_put (h.not_contains fresh), taken name, lookup_put_ne_none,
      fun _ => lookup_put_new new, id⟩
  | indexed content name m new fresh =>
    exact ⟨prefix_put (h.not_contains fresh), taken name, id, fun _ => id, lookup_put_new new⟩

/-- One more name is taken. -/
theorem claimed (h : Coherent redirectable r) (name : String) :
    Coherent redirectable { r with taken := name :: r.taken } :=
  ⟨h.name_of_model, fun hn => .tail _ (h.taken_of_model hn), fun hn => .tail _ (h.taken_of_key hn),
    fun hn => .tail _ (h.taken_of_content hn), h.model_of_content, h.content_unique, h.apart⟩

/-- A key gets a taken name, which no content has unless the key may be redirected. -/
theorem put_key (h : Coherent redirectable r) {key name : String} (taken : name ∈ r.taken)
    (apart : ¬ redirectable key → ∀ content, r.structural.lookup content ≠ some name) :
    Coherent redirectable { r with named := Dict.put r.named key name } := by
  refine ⟨h.name_of_model, h.taken_of_model, fun hn => ?_, h.taken_of_content, h.model_of_content,
    h.content_unique, fun hk hn => ?_⟩
  · rcases lookup_put_cases hn with ⟨-, rfl⟩ | hn
    · exact taken
    · exact h.taken_of_key hn
  · rcases lookup_put_cases hn with ⟨rfl, rfl⟩ | hn
    · exact apart hk _
    · exact h.apart hk hn

/-- A taken name gets a model. -/
theorem put_model (h : Coherent redirectable r) {name : String} (m : Model) (taken : name ∈ r.taken) :
    Coherent redirectable { r with models := Dict.put r.models name (entitled m name) } := by
  refine ⟨fun hm => ?_, fun hn => ?_, h.taken_of_key, h.taken_of_content,
    fun hs => (contains_put rfl).2 (.inr (h.model_of_content hs)), h.content_unique, h.apart⟩
  · rcases lookup_put_cases hm with ⟨rfl, rfl⟩ | hm
    · rfl
    · exact h.name_of_model hm
  · rcases (contains_put rfl).1 hn with rfl | hn
    · exact taken
    · exact h.taken_of_model hn

/-- A content gets the name of a model, which nothing else has. -/
theorem put_content (h : Coherent redirectable r) {content name : String}
    (model : r.contains name = true) (unused : ∀ c, r.structural.lookup c ≠ some name)
    (apart : ∀ key, r.named.lookup key ≠ some name) :
    Coherent redirectable { r with structural := Dict.put r.structural content name } := by
  refine ⟨h.name_of_model, h.taken_of_model, h.taken_of_key, fun hs => ?_, fun hs => ?_,
    fun h₁ h₂ => ?_, fun hk hn hs => ?_⟩
  · rcases lookup_put_cases hs with ⟨-, rfl⟩ | hs
    · exact h.taken_of_model model
    · exact h.taken_of_content hs
  · rcases lookup_put_cases hs with ⟨-, rfl⟩ | hs
    · exact model
    · exact h.model_of_content hs
  · rcases lookup_put_cases h₁ with ⟨e₁, n₁⟩ | o₁ <;>
      rcases lookup_put_cases h₂ with ⟨e₂, n₂⟩ | o₂
    · rw [e₁, e₂]
    · exact absurd (n₁ ▸ o₂) (unused _)
    · exact absurd (n₂ ▸ o₁) (unused _)
    · exact h.content_unique o₁ o₂
  · rcases lookup_put_cases hs with ⟨-, rfl⟩ | hs
    · exact apart _ hn
    · exact h.apart hk hn hs

/-- Each effect keeps the tables in agreement. -/
theorem step (h : Coherent redirectable r) (he : Effect redirectable r s) :
    Coherent redirectable s := by
  have unused {name : String} (fresh : name ∉ r.taken) (content : String) :
      r.structural.lookup content ≠ some name := fun hs => fresh (h.taken_of_content hs)
  cases he with
  | same => exact h
  | claimed name fresh => exact h.claimed name
  | reserved key name new fresh =>
    exact (h.claimed name).put_key (.head _) fun _ => unused fresh
  | redirected key name may taken => exact h.put_key taken fun fixed => absurd may fixed
  | fulfilled key name m known missing => exact h.put_model m (h.taken_of_key known)
  | declared key name m new fresh =>
    exact ((h.claimed name).put_key (.head _) fun _ => unused fresh).put_model m (.head _)
  | indexed content name m new fresh =>
    exact ((h.claimed name).put_model m (.head _)).put_content ((contains_put rfl).2 (.inl rfl))
      (unused fresh) fun _ hn => fresh (h.taken_of_key hn)

end Coherent

end ApiGraph.Registry
