import ApiGraph.Proofs.Resolve.Node
import ApiGraph.Proofs.Schema.Keyword

/-! The keywords that a schema keeps while it is resolved. Beside those of its node there are only
two: that null is allowed, when it is one of several types, and what the additional properties were
resolved into. -/

namespace ApiGraph

open Resolving

namespace Schema

/-- What additional properties are kept as: as they are when any are allowed, and else by the name of
what they were resolved into, which is one of some links. -/
inductive Marks (became : Json → Link Model → Prop) (links : List (Link Model)) : Json → Json → Prop
  | any : Marks became links (.bool true) (.bool true)
  | values {v : Json} {link : Link Model} (object : v.isObject = true) (resolved : became v link)
      (holds : link ∈ links) : Marks became links v (.str link.name)

variable {became became' : Json → Link Model → Prop} {links more : List (Link Model)} {v mark : Json}

theorem Marks.imp (h : Marks became links v mark)
    (imp : ∀ v link, became v link → became' v link) (sub : links ⊆ more) :
    Marks became' more v mark := by
  cases h with
  | any => exact .any
  | values object resolved holds => exact .values object (imp _ _ resolved) (sub holds)

end Schema

open Schema

/-- A model has the keywords of its node, the one for null if that is one of several types, and a mark
for additional properties that count. -/
structure Model.Sorted (m : Model) (became : Json → Link Model → Prop) (links : List (Link Model)) :
    Prop where
  validations : m.validations =
    allowNull (declaredType m.source).2 (keywords m.source).validations
  extras : m.extras = (keywords m.source).extras ∨
    ∃ mark, Marks became links (m.source.get "additionalProperties") mark ∧
      m.extras = Dict.put (keywords m.source).extras "additionalProperties" mark

namespace Model.Sorted

variable {became became' : Json → Link Model → Prop} {links more : List (Link Model)} {m k : Model}

theorem imp (h : m.Sorted became links) (imp : ∀ v link, became v link → became' v link)
    (sub : links ⊆ more) : m.Sorted became' more :=
  ⟨h.validations, h.extras.imp_right fun ⟨mark, marks, put⟩ => ⟨mark, marks.imp imp sub, put⟩⟩

theorem of_eq (h : m.Sorted became links) (source : k.source = m.source)
    (validations : k.validations = m.validations) (extras : k.extras = m.extras) :
    k.Sorted became links := by
  obtain ⟨hv, he⟩ := h
  exact ⟨by rw [validations, source, hv], by rw [extras, source]; exact he⟩

end Model.Sorted

namespace Schema

variable {document node : Json} {self : Resolver} {site : Site} {p q : Progress} {m m' : Model}
  {out : Outcome} {needs : List (Link Model)}

/-- What additional properties were resolved into by a run of a resolver, which the properties and
branches of the schema follow, if there are any. -/
def Becomes (document : Json) (self : Resolver) (site : Site) (node : Json) (p q : Progress) (v : Json)
    (link : Link Model) : Prop :=
  ∃ out s, link = out.result ∧
    Runs (resolveMember self (site.scope.down ["additionalProperties"]) (site.name ++ "Extras") [] v) p
      out s ∧
    (s = q ∨ ∃ m m' needs, Runs (resolveComposite document self site node m) s (m', needs) q)

/-- A schema starts with the keywords of its node. -/
theorem outline_sorted (h : Runs (outline site node) p m q) : m.source = node ∧
    m.validations = allowNull (declaredType node).2 (keywords node).validations ∧
    m.extras = (keywords node).extras := by
  simp only [outline, runs_bind, runs_fit, runs_pure] at h
  obtain ⟨_, _, ⟨_, rfl⟩, rfl, rfl⟩ := h
  exact ⟨rfl, rfl, rfl⟩

/-- Of the parts of a schema only additional properties change what it keeps. -/
theorem resolveParts_sorted (source : m.source = node)
    (validations : m.validations = allowNull (declaredType node).2 (keywords node).validations)
    (extras : m.extras = (keywords node).extras)
    (h : Runs (resolveParts document self site node m) p (m', needs) q) :
    m'.Sorted (Becomes document self site node p q) needs := by
  have start : m.Sorted (Becomes document self site node p q) [] :=
    ⟨by rw [source, validations], .inl (by rw [source, extras])⟩
  obtain ⟨-, ha⟩ | ⟨-, mid, hd, s, hmap, hc⟩ := resolveParts_runs h
  · obtain ⟨items, out, s, -, -, ⟨_, -, -, -, -, rfl⟩ | ⟨-, -, -, rfl⟩⟩ := resolveArray_runs ha
    all_goals exact (start.imp (fun _ _ => id) (List.nil_subset _)).of_eq rfl rfl rfl
  have follows : s = q ∨
      ∃ m m' needs, Runs (resolveComposite document self site node m) s (m', needs) q := by
    obtain ⟨-, tl, hcomp, -⟩ | ⟨-, rfl, -⟩ := hc
    · exact .inr ⟨mid, m', tl, hcomp⟩
    · exact .inl rfl
  have kept : mid.Sorted (Becomes document self site node p q) hd := by
    obtain ⟨out, hr, object, rfl, rfl⟩ | ⟨-, rfl, ⟨hv, rfl⟩ | ⟨-, rfl⟩⟩ := resolveMapValues_runs hmap
    · have marks : Marks (Becomes document self site node p q) (out.needs ++ [out.result])
          (m.source.get "additionalProperties") (.str out.result.name) := by
        rw [source]
        exact .values object ⟨out, s, rfl, hr, follows⟩ (by simp)
      exact ⟨start.validations, .inr ⟨_, marks, by rw [source, extras]⟩⟩
    · have marks : Marks (Becomes document self site node p q) []
          (m.source.get "additionalProperties") (.bool true) := by
        rw [source, hv]
        exact .any
      exact ⟨start.validations, .inr ⟨_, marks, by rw [source, extras]⟩⟩
    · exact start
  obtain ⟨-, tl, hcomp, rfl⟩ | ⟨-, -, rfl, rfl⟩ := hc
  · obtain ⟨names, fs, allOf, anyOf, oneOf, n₀, n₁, n₂, n₃, p₁, p₂, p₃, -, -, -, -, -, rfl, -⟩ :=
      resolveComposite_runs hcomp
    exact (kept.imp (fun _ _ => id) (List.subset_append_left _ _)).of_eq rfl rfl rfl
  · obtain ⟨_, _, _, plain, -⟩ := resolvePlain_eq node mid
    rw [plain]
    exact kept.of_eq rfl rfl rfl

/-- A schema keeps what additional properties were resolved into among what it depends on, or passes
it on. -/
theorem resolve_sorted (h : Runs (resolve document self site node) p out q)
    (hm : out.result = .model m) :
    m.Sorted (Becomes document self site node p q) (m.dependencies ++ out.needs) ∧
      (site.owner = true → out.needs = []) := by
  obtain ⟨ref, -, -, -, rfl⟩ | ⟨start, k, needs, hs, hp, rfl⟩ := resolve_runs h
  · cases hm
  obtain ⟨source, validations, extras⟩ := outline_sorted hs
  have sorted := resolveParts_sorted source validations extras hp
  split at hm
  · next owner =>
    obtain rfl := Link.model.inj hm
    simp only [owner, if_true]
    exact ⟨(sorted.imp (fun _ _ => id) (by simp)).of_eq rfl rfl rfl, fun _ => trivial⟩
  · next owner =>
    obtain rfl := Link.model.inj hm
    simp only [owner]
    exact ⟨sorted.imp (fun _ _ => id) (by simp), fun h => absurd h (by simp)⟩

end Schema

end ApiGraph
