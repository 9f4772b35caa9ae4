import ApiGraph.Resolve.Basic

/-! Successful runs of a resolution. A computation is opened through the steps that a successful
run of it must have made: no proof about a resolver needs more than these equivalences. -/

namespace ApiGraph.Resolving

/-- A computation succeeds with a result and leads from one state to another. -/
def Runs (m : Resolving α) (p : Progress) (a : α) (q : Progress) : Prop :=
  m.run.run p = (.ok a, q)

variable {p q s : Progress} {a : α} {b : β}

theorem exists_runs_of_isOk {m : Resolving α} (h : (m.run.run p).1.isOk = true) : ∃ a q, Runs m p a q := by
  unfold Runs
  generalize m.run.run p = x at h
  obtain ⟨_ | a, q⟩ := x
  · cases h
  · exact ⟨a, q, rfl⟩

@[simp] theorem runs_pure {c : α} : Runs (pure c) p a q ↔ a = c ∧ p = q := by
  constructor
  · intro h; cases h; exact ⟨rfl, rfl⟩
  · rintro ⟨rfl, rfl⟩; rfl

theorem run_bind {ε σ : Type} (m : ExceptT ε (StateM σ) α) (f : α → ExceptT ε (StateM σ) β)
    (p : σ) : (m >>= f).run.run p =
      match m.run.run p with
      | (.ok a, s) => (f a).run.run s
      | (.error e, s) => (.error e, s) := by
  rw [ExceptT.run_bind, StateT.run_bind]
  generalize m.run.run p = x
  obtain ⟨x, s⟩ := x
  cases x <;> rfl

@[simp] theorem runs_bind {m : Resolving α} {f : α → Resolving β} :
    Runs (m >>= f) p b q ↔ ∃ a s, Runs m p a s ∧ Runs (f a) s b q := by
  unfold Runs
  rw [run_bind]
  generalize m.run.run p = x
  obtain ⟨x, s⟩ := x
  constructor
  · intro h
    cases x with
    | error e => cases h
    | ok a => exact ⟨a, s, rfl, h⟩
  · rintro ⟨a, s', heq, h⟩
    cases heq
    exact h

/-- After a part that succeeds a computation goes on, whether it succeeds or not. -/
theorem Runs.run_bind {m : Resolving α} (h : Runs m p a s) (f : α → Resolving β) :
    (m >>= f).run.run p = (f a).run.run s := by
  rw [Resolving.run_bind, h]

@[simp] theorem runs_map {m : Resolving α} {f : α → β} :
    Runs (f <$> m) p b q ↔ ∃ a, Runs m p a q ∧ b = f a := by
  rw [← bind_pure_comp, runs_bind]
  constructor
  · rintro ⟨a, s, h, hb⟩
    obtain ⟨rfl, rfl⟩ := runs_pure.1 hb
    exact ⟨a, h, rfl⟩
  · rintro ⟨a, h, rfl⟩
    exact ⟨a, q, h, runs_pure.2 ⟨rfl, rfl⟩⟩

@[simp] theorem runs_fail {f : Failure} : Runs (fail f : Resolving α) p a q ↔ False := by
  constructor
  · intro h; cases h
  · exact False.elim

@[simp] theorem runs_malformed {flaw : Schema.Flaw} {location : String} :
    Runs (malformed flaw location : Resolving α) p a q ↔ False :=
  runs_fail

@[simp] theorem runs_lift {x : Except Failure α} : Runs (lift x) p a q ↔ x = .ok a ∧ p = q := by
  cases x with
  | error f => simp [lift]
  | ok c => simp [lift, eq_comm]

@[simp] theorem runs_fit {x : Shape.Checked α} : Runs (fit x) p a q ↔ x = .fits a ∧ p = q := by
  cases x with
  | fails ms => simp [fit]
  | fits c => simp [fit, eq_comm]

@[simp] theorem runs_get : Runs (get : Resolving Progress) p s q ↔ s = p ∧ p = q := by
  constructor
  · intro h; cases h; exact ⟨rfl, rfl⟩
  · rintro ⟨rfl, rfl⟩; rfl

@[simp] theorem runs_modify {f : Progress → Progress} {u : Unit} :
    Runs (modify f : Resolving Unit) p u q ↔ q = f p := by
  constructor
  · intro h; cases h; rfl
  · rintro rfl; rfl

@[simp] theorem runs_registry {r : Registry} : Runs registry p r q ↔ r = p.registry ∧ p = q := by
  constructor
  · intro h; cases h; exact ⟨rfl, rfl⟩
  · rintro ⟨rfl, rfl⟩; rfl

@[simp] theorem runs_setRegistry {r : Registry} {u : Unit} :
    Runs (setRegistry r) p u q ↔ q = { p with registry := r } := by
  simp [setRegistry]

@[simp] theorem runs_notify {n : Notice} {u : Unit} :
    Runs (notify n) p u q ↔ q = { p with notices := p.notices ++ [n] } := by
  simp [notify]

@[simp] theorem runs_freeName {name free : String} :
    Runs (freeName name) p free q ↔ free = p.registry.freeName name ∧ p = q := by
  constructor
  · intro h; cases h; exact ⟨rfl, rfl⟩
  · rintro ⟨rfl, rfl⟩; rfl

@[simp] theorem runs_claim {name : String} {u : Unit} :
    Runs (claim name) p u q ↔ q = { p with registry := (p.registry.claim name).2 } := by
  constructor
  · intro h; cases h; rfl
  · rintro rfl; rfl

@[simp] theorem runs_assert {raw : Json} {parsed : Link Model} {hint : Option String}
    {space : KeySpace} {location : String} {found : Resolved} :
    Runs (assert raw parsed hint space location) p found q ↔
      ∃ r, p.registry.assert raw parsed hint space location = .ok (found, r) ∧
        q = { p with registry := r } := by
  simp only [assert, runs_bind, runs_registry, runs_lift, runs_setRegistry, runs_pure]
  constructor
  · rintro ⟨_, _, ⟨rfl, rfl⟩, ⟨found', r⟩, _, ⟨h, rfl⟩, _, _, rfl, rfl, rfl⟩
    exact ⟨r, h, rfl⟩
  · rintro ⟨r, h, rfl⟩
    exact ⟨p.registry, p, ⟨rfl, rfl⟩, (found, r), p, ⟨h, rfl⟩, (), _, rfl, rfl, rfl⟩

theorem runs_assertContent {raw : Json} {parsed : Link Model} {scope : Scope} {found : Resolved} :
    Runs (assertContent raw parsed scope) p found q ↔
      ∃ r, p.registry.assert raw parsed none .structural scope.location = .ok (found, r) ∧
        q = { p with registry := r } :=
  runs_assert

@[simp] theorem runs_ite {c : Prop} [Decidable c] {x y : Resolving α} :
    Runs (if c then x else y) p a q ↔ if c then Runs x p a q else Runs y p a q := by
  split <;> rfl

end ApiGraph.Resolving
