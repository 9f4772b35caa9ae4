import ApiGraph.Proofs.Resolve.Collection
import ApiGraph.Proofs.Links
import ApiGraph.Proofs.Distinct

/-! How names are spelt. What is registered by its content gets an identifier, unless it is the schema of
a declared parameter, whose name continues that of the parameter. Whatever stands inside of a model has
a name that continues the one under which the model was resolved. -/

namespace ApiGraph

open Resolving Registry

variable {document v : Json} {r s : Registry} {links more : List (Link Model)} {link : Link Model}
  {site : Site} {m : Model} {out : Outcome} {name parent given base : String} {e : Component.Entry}

/-- All models among links have names that continue a name, and those inside of them continue theirs. -/
def Nested (name : String) (links : List (Link Model)) : Prop :=
  ∀ m, (Link.model m).Within links →
    Appends name m.name ∧ ∀ k, (Link.model k).Within m.inner → Appends m.name k.name

namespace Nested

theorem nil : Nested name [] := fun _ h => absurd h Link.not_within_nil

theorem sub (h : Nested name links) (hs : more ⊆ links) : Nested name more :=
  fun m hm => h m (hm.sub hs)

theorem append (h₁ : Nested name links) (h₂ : Nested name more) : Nested name (links ++ more) :=
  fun m hm => (Link.within_append.1 hm).elim (h₁ m) (h₂ m)

theorem ref {ref : Ref} : Nested name [.ref ref] := fun _ h => by cases Link.within_ref.1 h

theorem inner (h : Nested name (link :: links)) : Nested name link.inner := fun m hm =>
  h m (hm.of_inner.sub (List.cons_subset_cons _ (List.nil_subset _)))

theorem of_appends (h : Nested name links) (under : Appends parent name) : Nested parent links :=
  fun m hm => ⟨under.trans (h m hm).1, (h m hm).2⟩

theorem model (under : Appends name m.name) (inner : Nested m.name m.inner) :
    Nested name [.model m] := by
  intro k hk
  obtain hk | hk := Link.within_model.1 hk
  · obtain rfl := Link.model.inj hk
    exact ⟨under, fun l hl => (inner l hl).1⟩
  · exact ⟨under.trans (inner k hk).1, (inner k hk).2⟩

end Nested

/-- A name for what is declared: it continues the name of a component, or the one that is made for the
target of a reference. -/
def Declared (document : Json) (name : String) : Prop :=
  Component.Names document name ∨
    ∃ text target, Pointer.resolve document text = some target ∧ Appends (pointerName text) name

/-- Where something is resolved has an identifier or the name for what is declared. -/
def Sited (document : Json) (name : String) : Prop := IsIdentifier name ∨ Declared document name

theorem Sited.appends (h : Sited document parent) (under : Appends parent name) :
    Sited document name := by
  obtain word | ⟨e, he, named⟩ | ⟨text, target, leads, named⟩ := h
  · exact .inl (word.appends under)
  · exact .inr (.inl ⟨e, he, named.trans under⟩)
  · exact .inr (.inr ⟨text, target, leads, named.trans under⟩)

/-- A site has such a name, or none where one is going to be made. -/
def Site.IsSited (document : Json) (site : Site) (v : Json) : Prop :=
  Sited document site.name ∨ site.name = "" ∧ Schema.formOf v site.hint ≠ .schema

theorem Titled.appends (h : Titled given name) (under : Appends parent given) : Appends parent name := by
  obtain rfl | ⟨rfl, word⟩ := h
  · exact under
  obtain rfl := under.eq_empty rfl
  exact ⟨name.toList, by simp, word.2⟩

/-- What a node was resolved into at a site, as far as names go. -/
inductive Outcome.Spells (site : Site) (v : Json) : Outcome → Prop
  | handle {ref : Ref} : Spells site v ⟨.ref ref, []⟩
  | model {m : Model} {needs : List (Link Model)} (plain : v.has "$ref" = false)
    (titled : Titled site.name m.name)
    (unnamed : m.name = "" → Schema.formOf v site.hint = .schema)
    (shaped : Parameter.isObjectShaped m = true → Schema.formOf v site.hint = .schema)
    (nested : Nested m.name (m.inner ++ needs)) : Spells site v ⟨.model m, needs⟩

theorem Outcome.Spells.nested (h : out.Spells site v) (under : Appends parent site.name) :
    Nested parent (out.result :: out.needs) := by
  cases h with
  | handle => exact .ref
  | model _ titled _ _ nested =>
    have under := titled.appends under
    exact .append (.model under (nested.sub (List.subset_append_left _ _)))
      ((nested.sub (List.subset_append_right _ _)).of_appends under)

/-- The schema of a parameter stands for an object. -/
theorem Warrant.formOf {owner : String} (h : Warrant (some owner) v (.model m))
    (plain : v.has "$ref" = false)
    (shaped : Parameter.isObjectShaped m = true → Schema.formOf v site.hint = .schema) :
    Schema.formOf v none = .schema := by
  cases h with
  | parameter outer => cases outer
  | reference refers => cases refers.symm.trans plain
  | shaped model shape =>
    obtain rfl := Link.model.inj model
    exact Schema.formOf_none (shaped shape)
  | payload outer => cases outer

/-- A model that is made at a site with a name has one. -/
theorem Site.IsSited.model (h : site.IsSited document v) (titled : Titled site.name m.name)
    (unnamed : m.name = "" → Schema.formOf v site.hint = .schema) : Sited document m.name := by
  obtain same | ⟨-, word⟩ := titled
  · obtain sited | ⟨empty, other⟩ := h
    · exact same ▸ sited
    · exact absurd (unnamed (same.trans empty)) other
  · exact .inl word

/-- A name that content may have: an identifier, or that of the schema of a declared parameter. -/
def Entitles (document : Json) (content name : String) : Prop :=
  IsIdentifier name ∨ ∃ v parameter, v.canonical = content ∧ Schema.formOf v none = .schema ∧
    Declared document parameter ∧ Appends (parameter ++ "Schema") name

/-- What stands inside of a registered model continues the name that the model was resolved under. This
is the name that it is registered under, up to a number, unless that one is empty, or that of an alias,
for which the model of its target is copied. -/
def Based (document : Json) (r : Registry) (name : String) (m : Model) : Prop :=
  ∃ base, Nested base m.inner ∧ ((∃ taken, name = freeVariant taken base) ∨ name = "" ∨
    ∃ e ∈ Component.listed document, e.node.has "$ref" = true ∧ r.named.lookup e.key = some name)

theorem Entitles.schema {content parameter : String} (sited : Sited document parameter)
    (same : v.canonical = content) (form : Schema.formOf v none = .schema)
    (named : Appends (parameter ++ "Schema") name) : Entitles document content name := by
  obtain word | declared := sited
  · exact .inl ((word.appends (.append (List.all_eq_true.1 (by decide +kernel)))).appends named)
  · exact .inr ⟨v, parameter, same, form, declared, named⟩

theorem Based.of_grows {P : String → Prop} (h : Based document r name m) (g : Grows P r s)
    (kept : ∀ e ∈ Component.listed document, ¬ P e.key) : Based document s name m := by
  obtain ⟨base, nested, named | empty | ⟨e, he, refers, known⟩⟩ := h
  · exact ⟨base, nested, .inl named⟩
  · exact ⟨base, nested, .inr (.inl empty)⟩
  · exact ⟨base, nested, .inr (.inr ⟨e, he, refers, g.name (kept e he) known⟩)⟩

theorem Based.self (nested : Nested name m.inner) : Based document r name m :=
  ⟨name, nested, .inl ⟨[], (freeVariant_of_not_mem List.not_mem_nil).symm⟩⟩

/-- The names of a registry are spelt in this way. A key that is an identifier is that of gathered
parameters, which have no node. -/
structure Registry.Spelt (document : Json) (r : Registry) : Prop where
  named : ∀ {key name}, r.named.lookup key = some name → IsIdentifier key → IsIdentifier name
  content : ∀ {content name}, r.structural.lookup content = some name → Entitles document content name
  models : ∀ {name m}, r.models.lookup name = some m → m.source.isObject = true →
    Based document r name m

namespace Registry

/-- A reference into the document is no identifier. -/
theorem not_isIdentifier_of_head {key : String} (here : key.toList.head? = some '#') :
    ¬ IsIdentifier key := fun word => word.head_ne (by decide) here

theorem Spelt.of_eq (h : r.Spelt document) (g : Grows (fun _ => False) r s)
    (named : s.named = r.named) (structural : s.structural = r.structural)
    (models : s.models = r.models) : s.Spelt document :=
  ⟨fun hn => h.named (named ▸ hn), fun hc => h.content (structural ▸ hc),
    fun hm object => (h.models (models ▸ hm) object).of_grows g fun _ _ => id⟩

/-- A key that is a reference gets a name. -/
theorem Spelt.put {P : String → Prop} {key : String} (h : r.Spelt document) (g : Grows P r s)
    (kept : ∀ e ∈ Component.listed document, ¬ P e.key) (here : key.toList.head? = some '#') (named : s.named = Dict.put r.named key name)
    (structural : s.structural = r.structural) (models : s.models = r.models) : s.Spelt document := by
  refine ⟨fun hn word => ?_, fun hc => h.content (structural ▸ hc),
    fun hm object => (h.models (models ▸ hm) object).of_grows g kept⟩
  obtain ⟨rfl, -⟩ | hn := lookup_put_cases (named ▸ hn)
  · exact absurd word (not_isIdentifier_of_head here)
  · exact h.named hn word

theorem Spelt.reserve {key : String} (h : r.Spelt document) (new : r.named.lookup key = none)
    (here : key.toList.head? = some '#') (wanted : String) : (r.reserve key wanted).2.Spelt document :=
  h.put (P := fun _ => False) (grows_reserve new) (fun _ _ => id) here (by rw [reserve_new new])
    (by rw [reserve_new new]) (by rw [reserve_new new])

/-- A model enters, under the name of its key or a variant of its own name. -/
theorem Spelt.assert {R : String → Prop} {raw : Json} {hint : Option String} {space : KeySpace}
    {location : String} {found : Resolved} (h : r.Spelt document) (hr : r.Sound R)
    (ha : r.assert raw (.model m) hint space location = .ok (found, s))
    (named : space = .named → IsIdentifier (keyFor .named raw m hint) → IsIdentifier m.name)
    (content : space = .structural → Entitles document raw.canonical (r.freeName m.name))
    (based : m.source.isObject = true → ∀ name,
      (space = .named ∧ r.named.lookup (keyFor .named raw m hint) = some name ∨
        r.indexed space (keyFor space raw m hint) = none ∧ name = r.freeName m.name) →
          Based document s name m) : s.Spelt document := by
  have g : Grows (fun _ => False) r s := ((extends_assert ha) hr).2.of_new
  obtain rfl | ⟨k, hk, registered⟩ := assert_cases ha
  · exact h
  obtain rfl := Link.model.inj hk
  obtain rfl := congrArg Prod.snd registered
  have enrol {t : Registry} {n : String} {models : Dict String Model}
      (hm : ∀ {name k}, models.lookup name = some k → (k.source.isObject = true → Based document t name k))
      (hn : m.source.isObject = true → Based document t n m) {name : String} {k : Model}
      (hk : (Dict.put models n (entitled m n)).lookup name = some k) (object : k.source.isObject = true) :
      Based document t name k := by
    obtain ⟨rfl, rfl⟩ | hk := lookup_put_cases hk
    · exact hn object
    · exact hm hk object
  have old {name : String} {k : Model} (hk : r.models.lookup name = some k)
      (object : k.source.isObject = true) := (h.models hk object).of_grows g fun _ _ => id
  cases known : r.indexed space (keyFor space raw m hint) with
  | some n =>
    obtain same | ⟨absent, entered⟩ := register_known (m := m) known
    · rwa [same]
    cases space with
    | structural =>
      rw [hr.1.model_of_content known] at absent
      cases absent
    | named =>
      rw [entered] at g old based ⊢
      exact ⟨h.named, h.content, enrol old fun object => based object n (.inl ⟨rfl, known⟩)⟩
  | none =>
    have entered := register_unknown (m := m) known
    rw [entered] at g old based ⊢
    have models {name : String} {k : Model} := @enrol _ _ _ old
      (fun object => based object _ (.inr ⟨known, rfl⟩)) name k
    cases space with
    | named =>
      refine ⟨fun hn word => ?_, h.content, models⟩
      obtain ⟨rfl, rfl⟩ | hn := lookup_put_cases hn
      · exact (named rfl word).appends (appends_freeVariant _ _)
      · exact h.named hn word
    | structural =>
      refine ⟨h.named, fun hc => ?_, models⟩
      obtain ⟨rfl, rfl⟩ | hc := lookup_put_cases hc
      · exact content rfl
      · exact h.content hc

end Registry

end ApiGraph
