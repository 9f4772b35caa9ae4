import ApiGraph.Proofs.Resolve.Schema

/-! Links at any depth: those that stand in a list of links, and those inside the models that
stand there. -/

namespace ApiGraph

/-- A link is one of some links, or stands inside one of their models at some depth. -/
inductive Link.Within (l : Link Model) : List (Link Model) → Prop
  | here {links : List (Link Model)} (holds : l ∈ links) : Within l links
  | inside {links : List (Link Model)} {m : Model} (holds : .model m ∈ links)
    (deeper : Within l m.inner) : Within l links

namespace Link

variable {l : Link Model} {links more : List (Link Model)} {m : Model} {r : Ref}

theorem Within.sub (h : l.Within links) (sub : links ⊆ more) : l.Within more := by
  cases h with
  | here holds => exact .here (sub holds)
  | inside holds deeper => exact .inside (sub holds) deeper

/-- What stands inside a model stands wherever the model stands. -/
theorem Within.trans (h : (Link.model m).Within links) (hl : l.Within m.inner) : l.Within links := by
  induction h with
  | here holds => exact .inside holds hl
  | inside holds _ ih => exact .inside holds ih

theorem within_append : l.Within (links ++ more) ↔ l.Within links ∨ l.Within more := by
  constructor
  · intro h
    cases h with
    | here holds => exact (List.mem_append.1 holds).imp .here .here
    | inside holds deeper =>
      exact (List.mem_append.1 holds).imp (.inside · deeper) (.inside · deeper)
  · rintro (h | h)
    · exact h.sub (List.subset_append_left _ _)
    · exact h.sub (List.subset_append_right _ _)

theorem within_flatMap {α : Type} {f : α → List (Link Model)} {as : List α} :
    l.Within (as.flatMap f) ↔ ∃ a ∈ as, l.Within (f a) := by
  induction as with
  | nil =>
    refine ⟨fun h => ?_, by simp⟩
    cases h with
    | here holds => cases holds
    | inside holds _ => cases holds
  | cons a as ih => simp [within_append, ih]

theorem within_cons {k : Link Model} : l.Within (k :: links) ↔ l.Within [k] ∨ l.Within links :=
  @within_append l [k] links

@[simp] theorem not_within_nil : ¬ l.Within [] := by
  intro h
  cases h with
  | here holds => cases holds
  | inside holds _ => cases holds

@[simp] theorem within_ref : l.Within [.ref r] ↔ l = .ref r := by
  constructor
  · intro h
    cases h with
    | here holds => simpa using holds
    | inside holds _ => simp at holds
  · rintro rfl
    exact .here (by simp)

theorem within_model : l.Within [.model m] ↔ l = .model m ∨ l.Within m.inner := by
  constructor
  · intro h
    cases h with
    | here holds => exact Or.inl (by simpa using holds)
    | inside holds deeper =>
      simp only [List.mem_singleton, Link.model.injEq] at holds
      exact Or.inr (holds ▸ deeper)
  · rintro (rfl | h)
    · exact .here (by simp)
    · exact .inside (List.mem_singleton.2 rfl) h

/-- What stands inside the parts of a link stands inside the link. -/
theorem Within.of_inner {k : Link Model} (h : l.Within k.inner) : l.Within [k] := by
  cases k with
  | ref _ => exact h
  | model m => exact within_model.2 (Or.inr h)

end Link

end ApiGraph
