import ApiGraph.Proofs.Entity.Kin
import ApiGraph.Registry

/-! Registries that know the same names, of models that are the same but for the order of keys. What
they answer is the same, and so is what is registered next. -/

namespace ApiGraph

/-- Failures of the same class. A message that shows a whole value may show its keys in another
order. -/
inductive Failure.Akin : Failure → Failure → Prop
  | same (f : Failure) : Akin f f
  | version {v w source : Option String} : Akin (.version v source) (.version w source)
  | legacy {v w : String} {source : Option String} : Akin (.legacy v source) (.legacy w source)
  | mismatch {ms ns : List Shape.Mismatch} : Akin (.mismatch ms) (.mismatch ns)

/-- Both succeed with related values, or both fail with failures of the same class. -/
inductive Matches {α β : Type} (R : α → β → Prop) : Except Failure α → Except Failure β → Prop
  | ok {a : α} {b : β} (values : R a b) : Matches R (.ok a) (.ok b)
  | error {f f' : Failure} (failures : f.Akin f') : Matches R (.error f) (.error f')

/-- The parts of two pairs are related. -/
def Both {α β γ δ : Type} (R : α → β → Prop) (S : γ → δ → Prop) (x : α × γ) (y : β × δ) : Prop :=
  R x.1 y.1 ∧ S x.2 y.2

/-- Registries that know the same names, of models that are the same but for the order of keys. -/
structure Registry.Kin (r r' : Registry) : Prop where
  named : r.named = r'.named
  structural : r.structural = r'.structural
  models : List.Forall₂ (Both Eq Model.Kin) r.models r'.models
  taken : r.taken = r'.taken

/-- The same handle, with models that are the same but for the order of keys. -/
structure Resolved.Kin (a b : Resolved) : Prop where
  ref : a.ref = b.ref
  model : Option.Rel Model.Kin a.model b.model

namespace Matches

variable {α β γ δ : Type} {R : α → β → Prop} {S : γ → δ → Prop} {x : Except Failure α}
  {y : Except Failure β}

theorem map {f : α → γ} {g : β → δ} (h : Matches R x y) (hf : ∀ a b, R a b → S (f a) (g b)) :
    Matches S (x.map f) (y.map g) := by
  cases h with
  | ok values => exact .ok (hf _ _ values)
  | error failures => exact .error failures

theorem imp {T : α → β → Prop} (h : Matches R x y) (ht : ∀ a b, R a b → T a b) : Matches T x y := by
  cases h with
  | ok values => exact .ok (ht _ _ values)
  | error failures => exact .error failures

theorem fail (f : Failure) : Matches R (.error f) (.error f) := .error (.same f)

theorem refl (x : Except Failure α) : Matches Eq x x := by
  cases x with
  | ok a => exact .ok rfl
  | error f => exact .fail f

end Matches

section

variable {κ α β : Type} [BEq κ] {R : α → β → Prop} {d : Dict κ α} {d' : Dict κ β}

theorem rel_lookup (h : List.Forall₂ (Both Eq R) d d') (k : κ) :
    Option.Rel R (d.lookup k) (d'.lookup k) := by
  induction h with
  | nil => exact .none
  | @cons x y d d' hxy _ ih =>
    obtain ⟨j, a⟩ := x
    obtain ⟨_, b⟩ := y
    obtain ⟨rfl, hab⟩ : j = _ ∧ R a b := hxy
    rw [List.lookup_cons, List.lookup_cons]
    split
    · exact .some hab
    · exact ih

theorem rel_put (h : List.Forall₂ (Both Eq R) d d') (k : κ) {a : α} {b : β} (hab : R a b) :
    List.Forall₂ (Both Eq R) (Dict.put d k a) (Dict.put d' k b) := by
  induction h with
  | nil => exact .cons ⟨rfl, hab⟩ .nil
  | @cons x y d d' hxy rest ih =>
    obtain ⟨j, a'⟩ := x
    obtain ⟨_, b'⟩ := y
    obtain ⟨rfl, hxy⟩ : j = _ ∧ R a' b' := hxy
    rw [Dict.put, Dict.put]
    split
    · exact .cons ⟨rfl, hab⟩ rest
    · exact .cons ⟨rfl, hxy⟩ ih

end

namespace Registry

variable {r r' : Registry} {m m' : Model} {raw raw' : Json}

namespace Kin

theorem empty : Registry.empty.Kin Registry.empty := ⟨rfl, rfl, .nil, rfl⟩

section

variable (h : r.Kin r')
include h

theorem contains_eq (name : String) : r.contains name = r'.contains name :=
  Json.isSome_eq (rel_lookup h.models name)

theorem freeName_eq (name : String) : r.freeName name = r'.freeName name := by
  rw [freeName, freeName, h.taken]

theorem claim_eq (name : String) : (r.claim name).1 = (r'.claim name).1 := h.freeName_eq name

theorem claim (name : String) : (r.claim name).2.Kin (r'.claim name).2 :=
  ⟨h.named, h.structural, h.models, congrArg₂ List.cons (h.freeName_eq name) h.taken⟩

theorem reserve_eq (key name : String) : (r.reserve key name).1 = (r'.reserve key name).1 := by
  unfold reserve
  rw [h.named]
  split
  · rfl
  · exact congrArg Ref.named (h.claim_eq name)

theorem reserve (key name : String) : (r.reserve key name).2.Kin (r'.reserve key name).2 := by
  have claimed := h.claim name
  unfold Registry.reserve
  rw [h.named]
  split
  · exact h
  · refine ⟨?_, claimed.structural, claimed.models, claimed.taken⟩
    exact congrArg₂ (Dict.put · key ·) claimed.named (h.claim_eq name)

theorem redirect (key name : String) : (r.redirect key name).Kin (r'.redirect key name) :=
  ⟨congrArg (Dict.put · key name) h.named, h.structural, h.models, h.taken⟩

theorem lookupRef_eq (key : String) : r.lookupRef key = r'.lookupRef key := by
  rw [lookupRef, lookupRef, h.named, h.contains_eq]

theorem findStructural_eq {node node' : Json} (hn : node.canonical = node'.canonical) :
    r.findStructural node = r'.findStructural node' := by
  unfold findStructural
  rw [h.structural, hn]
  split
  · rw [h.contains_eq]
  · rfl

theorem resolve (key : String) : Option.Rel Resolved.Kin (r.resolve key) (r'.resolve key) := by
  unfold Registry.resolve
  rw [h.contains_eq, h.named]
  exact Json.rel_map (rel_lookup h.models _) fun _ _ hm => ⟨rfl, .some hm⟩

theorem require (key location : String) :
    Matches Resolved.Kin (r.require key location) (r'.require key location) := by
  have found := h.resolve key
  unfold Registry.require
  generalize r.resolve key = a at found
  generalize r'.resolve key = b at found
  cases found with
  | none => exact .fail _
  | some hm => exact .ok hm

theorem requireRef (ref : Ref) (location : String) :
    Matches Resolved.Kin (r.requireRef ref location) (r'.requireRef ref location) := by
  have found : Option.Rel Resolved.Kin (r.resolveRef ref) (r'.resolveRef ref) := by
    unfold resolveRef
    split
    · exact .some ⟨rfl, .none⟩
    · exact h.resolve ref.name
  unfold Registry.requireRef
  generalize r.resolveRef ref = a at found
  generalize r'.resolveRef ref = b at found
  cases found with
  | none => exact .fail _
  | some hm => exact .ok hm

theorem indexed_eq (space : KeySpace) (key : String) :
    r.indexed space key = r'.indexed space key := by
  cases space with
  | named => exact congrArg (List.lookup key) h.named
  | structural => exact congrArg (List.lookup key) h.structural

theorem index (space : KeySpace) (key name : String) :
    (r.index space key name).Kin (r'.index space key name) := by
  cases space with
  | named => exact ⟨congrArg (Dict.put · key name) h.named, h.structural, h.models, h.taken⟩
  | structural => exact ⟨h.named, congrArg (Dict.put · key name) h.structural, h.models, h.taken⟩

end

theorem entitled (hm : m.Kin m') (name : String) :
    (Registry.entitled m name).Kin (Registry.entitled m' name) :=
  { hm with
    name := rfl
    validations := hm.validations.merge (Schema.kin_validations hm.source)
    extras := hm.extras.merge (Schema.kin_extras hm.source) }

theorem enrol (h : r.Kin r') (name : String) (hm : m.Kin m') :
    Both Resolved.Kin Registry.Kin (r.enrol name m) (r'.enrol name m') :=
  ⟨⟨rfl, .some (entitled hm name)⟩,
    ⟨h.named, h.structural, rel_put h.models name (entitled hm name), h.taken⟩⟩

theorem register (h : r.Kin r') (space : KeySpace) (key : String) (hm : m.Kin m') :
    Both Resolved.Kin Registry.Kin (r.register space key m) (r'.register space key m') := by
  unfold Registry.register
  rw [h.indexed_eq]
  split
  · next name _ =>
    have found := rel_lookup h.models name
    generalize r.models.lookup name = a at found
    generalize r'.models.lookup name = b at found
    cases found with
    | none => exact h.enrol name hm
    | some known => exact ⟨⟨rfl, .some known⟩, h⟩
  · have claimed := h.claim m.name
    have name := h.claim_eq m.name
    rw [← hm.name]
    generalize r.claim m.name = x at claimed name
    generalize r'.claim m.name = y at claimed name
    obtain ⟨free, s⟩ := x
    obtain rfl : free = y.1 := name
    exact (claimed.index space key y.1).enrol y.1 hm

/-- Models of nodes that are the same but for the order of keys are registered in the same way. -/
theorem assert (h : r.Kin r') (hraw : Json.Kin false raw raw') {parsed parsed' : Link Model}
    (hp : parsed.Kin parsed') (hint : Option String) (space : KeySpace) (location : String) :
    Matches (Both Resolved.Kin Registry.Kin) (r.assert raw parsed hint space location)
      (r'.assert raw' parsed' hint space location) := by
  cases hp with
  | ref ref => exact (h.requireRef ref location).map fun _ _ found => ⟨found, h⟩
  | @model m m' hm =>
    have key : keyFor space raw m hint = keyFor space raw' m' hint := by
      cases space with
      | named => simp only [keyFor, hm.name]
      | structural => exact hraw.canonical_eq
    unfold Registry.assert
    dsimp only
    rw [hraw.get?_literal (k := "$ref") (by decide), key]
    split
    · split
      · exact (h.require _ location).map fun _ _ found => ⟨found, h⟩
      · exact .ok ⟨⟨rfl, .none⟩, h⟩
    · exact .ok (h.register space _ hm)

end Kin

end Registry

end ApiGraph
