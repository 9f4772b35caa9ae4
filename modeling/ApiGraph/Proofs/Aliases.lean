import ApiGraph.Proofs.Dereference
import ApiGraph.Proofs.Resolve.Aliases
import Mathlib.Data.Set.Finite.List
import Mathlib.Order.WellFounded

/-! Aliases become copies of what their chains end in, whichever components are declared first. The
components of a document are collected exactly when no chain of aliases leads back to where it came
from; otherwise the collection fails and names an alias whose chain has no end. -/

namespace ApiGraph

open Resolving Registry
open Relation (ReflTransGen TransGen)

namespace Component

variable {document document' : Json} {e e' last last' : Entry} {p q : Progress} {r : Registry}
  {scope : Scope} {text : String} {m : Model}

/-- A component refers to one other component at most. -/
theorem Refers.unique (unique : Unrepeated document) {a b c : Entry} (h : Refers document a b)
    (h' : Refers document a c) : b = c :=
  eq_of_key unique h.1 h'.1 (Json.str.inj (Option.some.inj (h.2.symm.trans h'.2)))

/-- Chains do not depend on the order of components. -/
theorem refers_of_perm (perm : (listed document').Perm (listed document)) :
    Refers document' = Refers document := by
  funext e e'
  exact propext (and_congr_left fun _ => perm.mem_iff)

/-- A chain has no more than one end. -/
theorem last_unique (unique : Unrepeated document) (chain : ReflTransGen (Refers document) e last)
    (ends : IsLast document last) (chain' : ReflTransGen (Refers document) e last')
    (ends' : IsLast document last') : last = last' := by
  have single : Relator.RightUnique (Refers document) := fun _ _ _ h h' => h.unique unique h'
  obtain more | more := ReflTransGen.total_of_right_unique single chain chain'
  · exact more.cases_head.resolve_right fun ⟨_, refers, _⟩ => ends _ refers
  · exact (more.cases_head.resolve_right fun ⟨_, refers, _⟩ => ends' _ refers).symm

/-- A component whose chain ends is on no cycle. -/
theorem not_cyclic_of_last (unique : Unrepeated document) (chain : ReflTransGen (Refers document) e last)
    (ends : IsLast document last) : ¬ TransGen (Refers document) e e := by
  induction chain using ReflTransGen.head_induction_on with
  | refl =>
    intro cycle
    obtain ⟨next, refers, -⟩ := TransGen.head'_iff.1 cycle
    exact ends next refers
  | @head a b refers _ ih =>
    intro cycle
    obtain ⟨next, first, back⟩ := TransGen.head'_iff.1 cycle
    obtain rfl := first.unique unique refers
    exact ih (.tail' back refers)

/-- Without cycles every chain ends, since there are finitely many components. -/
theorem exists_last (acyclic : ∀ e, ¬ TransGen (Refers document) e e) (he : e ∈ listed document) :
    ∃ last, ReflTransGen (Refers document) e last ∧ IsLast document last := by
  have : Finite { d // d ∈ listed document } := (List.finite_toSet (listed document)).to_subtype
  let below (a b : { d // d ∈ listed document }) : Prop := TransGen (Refers document) b.1 a.1
  have : IsTrans _ below := ⟨fun _ _ _ h h' => h'.trans h⟩
  have : Std.Irrefl below := ⟨fun a => acyclic a.1⟩
  have founded : WellFounded below := Finite.wellFounded_of_trans_of_irrefl below
  suffices all : ∀ d : { d // d ∈ listed document },
      ∃ last, ReflTransGen (Refers document) d.1 last ∧ IsLast document last from all ⟨e, he⟩
  intro d
  induction d using founded.induction with
  | h d ih =>
    by_cases ends : IsLast document d.1
    · exact ⟨d.1, .refl, ends⟩
    · obtain ⟨next, refers⟩ := not_forall_not.1 ends
      obtain ⟨last, chain, ends⟩ := ih ⟨next, refers.1⟩ (.single refers)
      exact ⟨last, .head refers chain, ends⟩

/-- In a state that cannot be left the chain of a component that waits has no end. -/
theorem Stuck.endless (unique : Unrepeated document) (stuck : Stuck document r) (he : e ∈ listed document)
    (waits : Waiting document r e) (chain : ReflTransGen (Refers document) e last) :
    ¬ IsLast document last := by
  have : last ∈ listed document ∧ Waiting document r last := by
    induction chain with
    | refl => exact ⟨he, waits⟩
    | tail _ refers ih =>
      obtain ⟨next, refers', waits⟩ := stuck _ ih.1 ih.2
      obtain rfl := refers'.unique unique refers
      exact ⟨refers.1, waits⟩
  obtain ⟨next, refers, -⟩ := stuck last this.1 this.2
  exact fun ends => ends next refers

/-- A component has the model of another one, but for its name and its place. -/
def CopyOf (document : Json) (r : Registry) (e last : Entry) : Prop :=
  ∃ m, r.models.lookup (given document last) = some m ∧
    r.models.lookup (given document e) = some (e.copy document m)

/-- What the aliases of a document are once all components have models: each component has a name of
its own, an alias has a copy of the model of the last component of its chain, and one that leads out
of the document has a placeholder. -/
structure AliasesCopied (document : Json) (r : Registry) : Prop where
  known : ∀ e ∈ listed document, r.lookupRef e.key = some (.named (given document e))
  own : ∀ e ∈ listed document, ∀ e' ∈ listed document, given document e = given document e' → e = e'
  copied : ∀ e ∈ listed document, ∀ e', Refers document e e' → ∃ last,
    ReflTransGen (Refers document) e' last ∧ IsLast document last ∧ CopyOf document r e last
  remote : ∀ e ∈ listed document, ∀ text, Leaves e text →
    r.models.lookup (given document e) = some (e.placeholder document text)

theorem Settles.copyOf (unique : Unrepeated document) (h : Settles document r e last m)
    (refers : Refers document e e') :
    ReflTransGen (Refers document) e' last ∧ CopyOf document r e last := by
  obtain rfl | ⟨next, first, chain⟩ := h.chain.cases_head
  · exact absurd refers (h.ends e')
  obtain rfl := first.unique unique refers
  have other : e ≠ last := fun same => h.ends next (same ▸ refers)
  exact ⟨chain, m, h.model, h.copied.resolve_left other⟩

theorem Standing.aliasesCopied (unique : Unrepeated document) (h : Standing document r)
    (settled : ∀ e ∈ listed document, ¬ Waiting document r e) : AliasesCopied document r where
  known e he := by rw [lookupRef, h.named he]
  own _ he _ he' := given_injective unique he he'
  copied e he e' refers := by
    obtain ⟨last, m, s⟩ := (h.settled he).resolve_left (settled e he)
    obtain ⟨chain, copy⟩ := s.copyOf unique refers
    exact ⟨last, chain, s.ends, copy⟩
  remote e he text leaves := by
    obtain ⟨last, m, s⟩ := (h.settled he).resolve_left (settled e he)
    obtain rfl | ⟨next, refers, -⟩ := s.chain.cases_head
    · exact s.model.trans (congrArg some (s.remote text leaves))
    · exact absurd refers leaves.not_refers

/-- Without cycles the components of a document are collected. -/
theorem Proper.collects (proper : Proper document scope p) (named : scope.space = .named)
    (fresh : p.registry = .empty) (acyclic : ∀ e, ¬ TransGen (Refers document) e e) :
    ∃ q, Runs (collect document (resolveNode document) scope) p () q := by
  obtain ⟨q, -, ⟨run, -⟩ | ⟨stuck, _, d, -, refers, waits, -⟩⟩ := collect_run named fresh proper
  · exact ⟨q, run⟩
  · obtain ⟨last, chain, ends⟩ := exists_last acyclic refers.1
    exact absurd ends (stuck.endless proper.unrepeated refers.1 waits chain)

theorem Proper.collected (proper : Proper document scope p) (named : scope.space = .named)
    (fresh : p.registry = .empty) (h : Runs (collect document (resolveNode document) scope) p () q) :
    Standing document q.registry ∧ ∀ e ∈ listed document, ¬ Waiting document q.registry e := by
  obtain ⟨s, standing, ⟨run, settled⟩ | ⟨-, _, _, -, -, -, run⟩⟩ := collect_run named fresh proper
  · obtain rfl := congrArg Prod.snd (run.symm.trans h)
    exact ⟨standing, settled⟩
  · cases run.symm.trans h

/-- When the components of a document were collected, no chain of aliases leads back to where it came
from. -/
theorem Proper.acyclic (proper : Proper document scope p) (named : scope.space = .named)
    (fresh : p.registry = .empty) (h : Runs (collect document (resolveNode document) scope) p () q)
    (e : Entry) : ¬ TransGen (Refers document) e e := by
  intro cycle
  obtain ⟨standing, settled⟩ := proper.collected named fresh h
  obtain ⟨_, -, refers⟩ := TransGen.tail'_iff.1 cycle
  obtain ⟨last, m, s⟩ := (standing.settled refers.1).resolve_left (settled e refers.1)
  exact not_cyclic_of_last proper.unrepeated s.chain s.ends cycle

end Component

namespace Component

/-- A description that declares schemas. -/
def declaring (schemas : List Entry) : Json :=
  .obj [("components", .obj [("schemas", .obj (schemas.map fun e => (e.name, e.node)))])]

/-- A schema whose property has a property. -/
def nesting (name property : String) : Entry where
  group := ⟨"schemas", "Schema", none⟩
  name := name
  node := .obj [("properties", .obj [(property, .obj [("properties", .obj [])])])]

/-- A schema that is nothing but a reference. -/
def linking (name text : String) : Entry := ⟨⟨"schemas", "Schema", none⟩, name, .link text⟩

namespace Chained

/-- Two schemas whose properties ask for the same name. -/
def a : Entry := nesting "A" "bC"
def ab : Entry := nesting "AB" "C"

/-- A chain that ends at the first of them, and a reference that leads out of the document. -/
def x : Entry := linking "X" (Pointer.component "schemas" "Y")
def y : Entry := linking "Y" (Pointer.component "schemas" "A")
def z : Entry := linking "Z" "https://e.com/z"

/-- The schemas in one order or the other. -/
def document (flipped : Bool) : Json :=
  declaring (if flipped then [ab, a, x, y, z] else [a, ab, x, y, z])

theorem listed_document (flipped : Bool) :
    listed (document flipped) = if flipped then [ab, a, x, y, z] else [a, ab, x, y, z] := by
  cases flipped <;> rfl

theorem mem_listed {flipped : Bool} {e : Entry} :
    e ∈ listed (document flipped) ↔ e = a ∨ e = ab ∨ e = x ∨ e = y ∨ e = z := by
  rw [listed_document]
  cases flipped <;> simp [or_left_comm]

theorem x_refers (flipped : Bool) : Refers (document flipped) x y := ⟨mem_listed.2 (by simp), rfl⟩

theorem y_refers (flipped : Bool) : Refers (document flipped) y a := ⟨mem_listed.2 (by simp), rfl⟩

theorem z_leaves : Leaves z "https://e.com/z" := ⟨rfl, by decide⟩

theorem proper (flipped : Bool) : Proper (document flipped) (Scope.root.phase .named) .start where
  declares := by cases flipped <;> rfl
  unrepeated := by
    unfold Unrepeated
    cases flipped <;> decide +kernel
  plain := by cases flipped <;> decide +kernel
  refers e he isRef := by
    obtain rfl | rfl | rfl | rfl | rfl := mem_listed.1 he
    · cases isRef
    · cases isRef
    · exact .inl ⟨y, x_refers flipped⟩
    · exact .inl ⟨a, y_refers flipped⟩
    · exact .inr ⟨_, z_leaves⟩
  rest := exists_runs_of_isOk (by cases flipped <;> decide +kernel)

theorem collects (flipped : Bool) :
    Runs (collect (document flipped) (resolveNode (document flipped)) (Scope.root.phase .named)) .start ()
      (collectedOf (document flipped)).2 :=
  Prod.ext (eq_ok_of_isOk (by cases flipped <;> decide +kernel)) rfl

end Chained

end Component

end ApiGraph
