import ApiGraph.Proofs.Json.Inside
import Mathlib.Data.List.Perm.Subperm

/-! Chains of references inside a document. No reference comes twice in a chain that ends, so that
it has at most one step more than the document has values. -/

namespace ApiGraph.Json

/-- The value that the reference of a node leads to inside the document. -/
def target? (node document : Json) : Option Json :=
  match node.get? "$ref" with
  | some (.str ref) => Pointer.resolve document ref
  | _ => none

/-- The chain of references from a node on ends after some steps. -/
inductive EndsAfter (document : Json) : Nat → Json → Prop
  | here {node : Json} (stops : node.target? document = none) : EndsAfter document 0 node
  | later {n : Nat} {node v : Json} (leads : node.target? document = some v)
    (rest : EndsAfter document n v) : EndsAfter document (n + 1) node

variable {document node v : Json} {n k : Nat}

theorem target?_eq_some : node.target? document = some v ↔
    ∃ text, node.get? "$ref" = some (.str text) ∧ Pointer.resolve document text = some v := by
  unfold target?
  split
  · next text ht => simp [ht]
  · next other =>
    refine iff_of_false nofun ?_
    rintro ⟨text, ht, -⟩
    exact other text ht

namespace EndsAfter

theorem unique (h : EndsAfter document n node) (h' : EndsAfter document k node) : n = k := by
  induction h generalizing k with
  | here stops =>
    cases h' with
    | here _ => rfl
    | later leads _ =>
      rw [stops] at leads
      cases leads
  | later leads _ ih =>
    cases h' with
    | here stops =>
      rw [leads] at stops
      cases stops
    | later leads' rest =>
      rw [leads] at leads'
      obtain rfl := Option.some.inj leads'
      rw [ih rest]

/-- The references of a chain are different texts of the document: each leads to where fewer steps
are left than at those before. -/
theorem texts (h : EndsAfter document n node) (stands : node = document ∨ node.Inside document) :
    ∃ refs : List String, refs.length = n ∧ refs.Nodup ∧ refs ⊆ document.texts ∧
      ∀ text ∈ refs, ∃ k v, k < n ∧ Pointer.resolve document text = some v ∧
        EndsAfter document k v := by
  induction h with
  | here _ => exact ⟨[], rfl, List.nodup_nil, List.nil_subset _, nofun⟩
  | @later n node v leads rest ih =>
    obtain ⟨text, ht, hv⟩ := target?_eq_some.1 leads
    obtain ⟨refs, length, nodup, sub, fewer⟩ := ih (Pointer.inside_resolve hv)
    have mem : text ∈ document.texts := by
      have inside : (Json.str text).Inside node := inside_get? ht
      obtain rfl | stands := stands
      · exact inside.texts_subset (by simp [Json.texts])
      · exact (inside.trans stands).texts_subset (by simp [Json.texts])
    have new : text ∉ refs := by
      intro again
      obtain ⟨k, w, less, hw, left⟩ := fewer text again
      rw [hv] at hw
      obtain rfl := Option.some.inj hw
      exact absurd (left.unique rest) (Nat.ne_of_lt less)
    refine ⟨text :: refs, congrArg (· + 1) length, List.nodup_cons.2 ⟨new, nodup⟩,
      List.cons_subset.2 ⟨mem, sub⟩, fun t ht => ?_⟩
    obtain rfl | ht := List.mem_cons.1 ht
    · exact ⟨n, v, n.lt_succ_self, hv, rest⟩
    · obtain ⟨k, w, less, hw, left⟩ := fewer t ht
      exact ⟨k, w, Nat.lt_succ_of_lt less, hw, left⟩

/-- The first reference of a chain may stand outside of the document. -/
theorem le_size (h : EndsAfter document n node) : n ≤ document.size + 1 := by
  cases h with
  | here _ => exact Nat.zero_le _
  | later leads rest =>
    obtain ⟨text, -, hv⟩ := target?_eq_some.1 leads
    obtain ⟨refs, length, nodup, sub, -⟩ := rest.texts (Pointer.inside_resolve hv)
    have bound := (List.subperm_of_subset nodup sub).length_le
    have texts := document.length_texts_le
    omega

end EndsAfter

end ApiGraph.Json
