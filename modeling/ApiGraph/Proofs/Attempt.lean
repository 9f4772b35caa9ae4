/-! Computations that may fail. One that succeeds does so with all its parts, and one that fails does
so at one of them. -/

namespace ApiGraph.Attempt

variable {ε α β γ : Type} {flaw : ε}

/-- A computation that succeeds does so with both its parts. -/
theorem of_bind_ok {x : Except ε α} {f : α → Except ε β} {b : β} (h : (x >>= f) = .ok b) :
    ∃ a, x = .ok a ∧ f a = .ok b := by
  cases x with
  | error e => cases h
  | ok a => exact ⟨a, rfl, h⟩

/-- A computation that fails does so at one of its parts, and what is before that part succeeds. -/
theorem of_bind_error {x : Except ε α} {f : α → Except ε β} (h : (x >>= f) = .error flaw) :
    x = .error flaw ∨ ∃ a, x = .ok a ∧ f a = .error flaw := by
  cases x with
  | error e =>
    cases h
    exact .inl rfl
  | ok a => exact .inr ⟨a, rfl, h⟩

section

variable {f : α → Except ε β} {as : List α} {bs : List β}

theorem mapM_ok {read : γ → Except ε β} {write : α → γ} {g : α → β}
    (h : ∀ a ∈ as, read (write a) = .ok (g a)) : (as.map write).mapM read = .ok (as.map g) := by
  induction as with
  | nil => rfl
  | cons a as ih =>
    rw [List.map_cons, List.mapM_cons, h a List.mem_cons_self,
      ih fun c hc => h c (List.mem_cons_of_mem _ hc)]
    rfl

theorem of_mapM_ok (h : as.mapM f = .ok bs) : ∀ a ∈ as, ∃ b, f a = .ok b := by
  induction as generalizing bs with
  | nil => simp
  | cons a as ih =>
    rw [List.mapM_cons] at h
    obtain ⟨b, ha, h⟩ := of_bind_ok h
    obtain ⟨bs', hr, -⟩ := of_bind_ok h
    exact List.forall_mem_cons.2 ⟨⟨b, ha⟩, ih hr⟩

theorem of_mapM_error (h : as.mapM f = .error flaw) : ∃ a ∈ as, f a = .error flaw := by
  induction as with
  | nil => cases h
  | cons a as ih =>
    rw [List.mapM_cons] at h
    obtain ha | ⟨b, -, h⟩ := of_bind_error h
    · exact ⟨a, List.mem_cons_self, ha⟩
    · obtain hr | ⟨bs, -, h⟩ := of_bind_error h
      · obtain ⟨c, hc, hf⟩ := ih hr
        exact ⟨c, List.mem_cons_of_mem _ hc, hf⟩
      · cases h

end

section

variable {f : β → α → Except ε β} {as : List α} {b c : β}

theorem of_foldlM_ok (h : as.foldlM f b = .ok c) : ∀ a ∈ as, ∃ x y, f x a = .ok y := by
  induction as generalizing b with
  | nil => simp
  | cons a as ih =>
    rw [List.foldlM_cons] at h
    obtain ⟨d, ha, h⟩ := of_bind_ok h
    exact List.forall_mem_cons.2 ⟨⟨b, d, ha⟩, ih h⟩

theorem of_foldlM_error (h : as.foldlM f b = .error flaw) :
    ∃ a ∈ as, ∃ x, f x a = .error flaw := by
  induction as generalizing b with
  | nil => cases h
  | cons a as ih =>
    rw [List.foldlM_cons] at h
    obtain ha | ⟨d, -, h⟩ := of_bind_error h
    · exact ⟨a, List.mem_cons_self, b, ha⟩
    · obtain ⟨x, hx, hf⟩ := ih h
      exact ⟨x, List.mem_cons_of_mem _ hx, hf⟩

end

end ApiGraph.Attempt
