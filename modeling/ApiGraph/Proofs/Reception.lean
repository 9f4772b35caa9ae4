import ApiGraph.Proofs.Reload
import ApiGraph.Roster

/-! Listeners that take every entity or none. Whether a delivery to them succeeds hinges on the
categories that get something, not on the order in which they get it. -/

namespace ApiGraph

variable {τ : Type} {a b : Audience τ} {e : Entity} {k : Kind} {xs : List (Kind × Entity)}

/-- A listener that takes every entity or none. -/
def Listener.Steady (l : Listener τ) : Prop := ∀ n message, l.limit = some (n, message) → n = 0

namespace Audience

/-- All listeners take every entity or none. -/
def Steady (a : Audience τ) : Prop := ∀ k, ∀ l ∈ a.of k, l.Steady

/-- All listeners of a category take its entities. -/
def Welcomes (a : Audience τ) (k : Kind) : Prop := ∀ l ∈ a.of k, l.limit = none

/-- All categories that get something take it. -/
def WelcomesAll (a : Audience τ) (xs : List (Kind × Entity)) : Prop := ∀ x ∈ xs, a.Welcomes x.1

/-- It makes no difference in which order deliveries come, nor how many there are to a category. -/
theorem welcomesAll_iff_of_under {ys : List (Kind × Entity)}
    (h : ∀ k, under k xs = [] ↔ under k ys = []) : a.WelcomesAll xs ↔ a.WelcomesAll ys := by
  have one {xs ys : List (Kind × Entity)} (h : ∀ k, under k xs = [] → under k ys = [])
      (welcome : a.WelcomesAll xs) : a.WelcomesAll ys := by
    intro y hy
    obtain ⟨x, hx, hk⟩ : ∃ x ∈ xs, x.1 = y.1 := by
      by_contra hn
      have gone : under y.1 xs = [] := by
        simpa [under] using fun k e hx hk => hn ⟨(k, e), hx, hk⟩
      have here : y.2 ∈ under y.1 ys := List.mem_map.2 ⟨y, by simpa using hy, rfl⟩
      rw [h y.1 gone] at here
      cases here
    exact hk ▸ welcome x hx
  exact ⟨one fun k => (h k).1, one fun k => (h k).2⟩

end Audience

namespace Delivering

open Resolving

/-- A delivery to an audience succeeds and leaves the audience as it is if a condition holds, and a
listener ends it otherwise. -/
def Hinges (a : Audience τ) (P : Prop) (d : Delivering τ Unit) : Prop :=
  ∀ s : Stage τ, s.audience.of = a.of →
    (P → ∃ t, d.run.run s = (.ok (), t) ∧ t.audience.of = a.of) ∧
      (¬ P → ∃ message t, d.run.run s = (.error (.planned message), t))

namespace Hinges

variable {P Q : Prop} {d d' : Delivering τ Unit}

theorem skip : Hinges a True (pure ()) :=
  fun s hs => ⟨fun _ => ⟨s, rfl, hs⟩, fun h => absurd trivial h⟩

theorem bind (h : Hinges a P d) (h' : Hinges a Q d') : Hinges a (P ∧ Q) (d >>= fun _ => d') := by
  intro s hs
  obtain ⟨succeeds, fails⟩ := h s hs
  rw [run_bind]
  by_cases hP : P
  · obtain ⟨t, hd, ht⟩ := succeeds hP
    rw [hd]
    obtain ⟨succeeds', fails'⟩ := h' t ht
    exact ⟨fun hPQ => succeeds' hPQ.2, fun hn => fails' fun hQ => hn ⟨hP, hQ⟩⟩
  · obtain ⟨message, t, hd⟩ := fails hP
    rw [hd]
    exact ⟨fun hPQ => absurd hPQ.1 hP, fun _ => ⟨message, t, rfl⟩⟩

theorem congr (h : Hinges a P d) (hPQ : P ↔ Q) : Hinges a Q d := (propext hPQ) ▸ h

theorem forM {α : Type} {f : α → Delivering τ Unit} {P : α → Prop} (as : List α)
    (h : ∀ x ∈ as, Hinges a (P x) (f x)) : Hinges a (∀ x ∈ as, P x) (as.forM f) := by
  induction as with
  | nil => exact skip.congr (by simp)
  | cons x as ih =>
    have rest := ih fun y hy => h y (List.mem_cons_of_mem _ hy)
    exact ((h x (List.mem_cons_self ..)).bind rest).congr (by simp)

/-- Each listener of a category either takes the entity or ends the delivery. -/
theorem giveFrom (done rest : List (Listener τ)) (hk : a.of k = done ++ rest)
    (steady : ∀ l ∈ rest, l.Steady) :
    Hinges a (∀ l ∈ rest, l.limit = none) (giveFrom k e done rest) := by
  induction rest generalizing done with
  | nil => exact skip.congr (by simp)
  | cons l rest ih =>
    intro s hs
    have hl := steady l (List.mem_cons_self ..)
    obtain ⟨tag, limit⟩ := l
    cases limit with
    | some x =>
      obtain ⟨n, message⟩ := x
      obtain rfl : n = 0 := hl n message rfl
      exact ⟨fun h => by simpa using h _ (List.mem_cons_self ..), fun _ => ⟨message, s, rfl⟩⟩
    | none =>
      have same : Audience.of (Dict.put s.audience k (done ++ ⟨tag, none⟩ :: rest)) = a.of := by
        funext j
        rw [Audience.of_put, hs]
        split
        · next hj => rw [hj, hk]
        · rfl
      have further := ih (done ++ [⟨tag, none⟩]) (by rw [hk, List.append_assoc]; rfl)
        (fun l hl => steady l (List.mem_cons_of_mem _ hl))
        { s with
          heard := s.heard ++ [(tag, e.label)]
          audience := Dict.put s.audience k (done ++ ⟨tag, none⟩ :: rest) } same
      have reduce : (∀ l ∈ (⟨tag, none⟩ : Listener τ) :: rest, l.limit = none) ↔
          ∀ l ∈ rest, l.limit = none := by simp
      rw [reduce]
      exact further

variable (steady : a.Steady)
include steady

theorem deliver (k : Kind) (e : Entity) : Hinges a (a.Welcomes k) (Delivering.deliver k e) := by
  intro s hs
  have same : (Delivering.deliver k e).run.run s =
      (Delivering.giveFrom k e [] (a.of k)).run.run s := by
    rw [← hs]
    rfl
  rw [same]
  exact giveFrom [] (a.of k) rfl (steady k) s hs

theorem emit (categories : List Kind) (e : Entity) :
    Hinges a (∀ k ∈ categories, a.Welcomes k) (Delivering.emit categories e) :=
  forM categories fun k _ s hs =>
    deliver steady k e { s with snapshot := s.snapshot.record k e } hs

/-- The notices of a walk are delivered if everyone takes its entities. -/
theorem play (notices : List Notice) :
    Hinges a (a.WelcomesAll ((notices.filterMap Notice.entity?).flatMap spread))
      (Delivering.play notices) := by
  have acted : ∀ notice ∈ notices, Hinges a (a.WelcomesAll (notice.entity?.toList.flatMap spread))
      (Delivering.act notice) := by
    intro notice _
    cases notice with
    | entity categories e =>
      exact (emit steady categories e).congr (by simp [Audience.WelcomesAll, Notice.entity?, spread])
    | warning text =>
      exact fun s hs => ⟨fun _ => ⟨_, rfl, hs⟩, fun h => absurd (fun x hx => by cases hx) h⟩
  refine (forM notices acted).congr ?_
  rw [List.filterMap_eq_flatMap_toList, List.flatMap_assoc]
  simp only [Audience.WelcomesAll, List.mem_flatMap]
  constructor
  · rintro h x ⟨n, hn, hx⟩
    exact h n hn x hx
  · exact fun h n hn x hx => h x ⟨n, hn, hx⟩

/-- A snapshot is delivered if everyone takes its entities. -/
theorem replay (snapshot : Snapshot) :
    Hinges a (a.WelcomesAll snapshot.deliveries) (Delivering.replay snapshot) :=
  forM snapshot.deliveries fun x _ => deliver steady x.1 x.2

end Hinges

end Delivering

theorem Resolving.Runs.eq {α : Type} {m : Resolving α} {p q r : Progress} {x y : α}
    (h : Runs m p x q) (h' : Runs m p y r) : x = y ∧ q = r := by
  have same := h.symm.trans h'
  exact ⟨Except.ok.inj (Prod.mk.inj same).1, (Prod.mk.inj same).2⟩

namespace Graph

variable {σ : Type} {document : Json} {g : Graph σ} {g' : Graph τ} {c : Change σ}

/-- What is recorded of a document does not hinge on who listens. -/
theorem Accepted.snapshot_eq {c' : Change τ} (h : g.Accepted document c) (h' : g'.Accepted document c') :
    c.graph.snapshot = c'.graph.snapshot := by
  obtain ⟨s, t, _, walked, hc, hp, -, -, -, -, -, hs, -⟩ := h.walked
  obtain ⟨s', t', _, walked', hc', hp', -, -, -, -, -, hs', -⟩ := h'.walked
  obtain ⟨-, rfl⟩ := hc.eq hc'
  obtain ⟨rfl, rfl⟩ := hp.eq hp'
  rw [hs, hs']

/-- A document that was accepted once is accepted again if everyone takes what was recorded of it. -/
theorem Accepted.again (h : g.Accepted document c) (steady : g'.audience.Steady) :
    (g'.audience.WelcomesAll c.graph.snapshot.deliveries →
        (g'.resolveAll document).outcome = .ok ()) ∧
      (¬ g'.audience.WelcomesAll c.graph.snapshot.deliveries →
        ∃ message, (g'.resolveAll document).outcome = .error (.planned message)) := by
  obtain ⟨_, _, q, walked, -, -, hw, -⟩ := h.walked
  obtain ⟨visits, account, emitted, -⟩ := h.account
  have same : g'.audience.WelcomesAll (q.emitted.flatMap spread) ↔
      g'.audience.WelcomesAll c.graph.snapshot.deliveries := by
    refine Audience.welcomesAll_iff_of_under fun k => ?_
    have hq : q = ((walk document).run.run .start).2 := (congrArg Prod.snd hw).symm
    rw [Snapshot.under_deliveries account.nodup_categories, account.get_eq_under, hq, emitted,
      entities_spread]
  rw [← same]
  obtain ⟨succeeds, fails⟩ := Delivering.Hinges.play steady q.notices g'.stage rfl
  unfold resolveAll
  rw [show (walk document).run.run .start = (.ok (.ofWalk walked), q) from hw]
  dsimp only
  constructor
  · intro welcome
    obtain ⟨t, played, -⟩ := succeeds welcome
    rw [played]
  · intro refused
    obtain ⟨message, t, played⟩ := fails refused
    rw [played]
    exact ⟨message, rfl⟩

/-- A snapshot is loaded if everyone takes what it records. -/
theorem loaded_again {d : Json} {s : Snapshot} (read : Snapshot.ofJson d = .ok s)
    (steady : g'.audience.Steady) :
    (g'.audience.WelcomesAll s.deliveries → (g'.loadJson d true).outcome = .ok ()) ∧
      (¬ g'.audience.WelcomesAll s.deliveries →
        ∃ message, (g'.loadJson d true).outcome = .error (.planned message)) := by
  obtain ⟨succeeds, fails⟩ := Delivering.Hinges.replay steady s (g'.adopt s).stage rfl
  have opened : (g'.loadJson d true).outcome =
      ((Delivering.replay s).run.run (g'.adopt s).stage).1 := by
    unfold loadJson
    rw [read]
    rfl
  rw [opened]
  constructor
  · intro welcome
    obtain ⟨t, played, -⟩ := succeeds welcome
    rw [played]
  · intro refused
    obtain ⟨message, t, played⟩ := fails refused
    exact ⟨message, by rw [played]⟩

end Graph

/-- Where a document comes from is told in the failure if its version is refused, and nowhere else. -/
theorem Declaration.accept_source (declared : Option Declaration) (source source' : Option String) :
    (∃ v, accept declared source = .ok v ∧ accept declared source' = .ok v) ∨
      ∃ f f', accept declared source = .error f ∧ accept declared source' = .error f' ∧
        f.exitCode? = f'.exitCode? := by
  unfold accept
  split
  · exact .inr ⟨_, _, rfl, rfl, rfl⟩
  · split
    · exact .inr ⟨_, _, rfl, rfl, rfl⟩
    · exact .inr ⟨_, _, rfl, rfl, rfl⟩
    · next v _ _ =>
      split
      · exact .inl ⟨v, rfl, rfl⟩
      · exact .inr ⟨_, _, rfl, rfl, rfl⟩

namespace Graph

variable {σ : Type} {document : Json} {g : Graph σ} {value : Datum} {source : Option String}

/-- A graph resolves a document in the same way wherever it comes from. -/
theorem parseDatum_source (g : Graph σ) (value : Datum) (source source' : Option String) :
    g.parseDatum value source = g.parseDatum value source' ∨
      ∃ f f', (g.parseDatum value source).outcome = .error f ∧
        (g.parseDatum value source').outcome = .error f' ∧ f.exitCode? = f'.exitCode? := by
  unfold parseDatum
  cases value.declaration with
  | error f => exact .inl rfl
  | ok declared =>
    rcases Declaration.accept_source declared source source' with ⟨v, h, h'⟩ | ⟨f, f', h, h', code⟩
    · left
      simp only [Except.bind, h, h']
    · right
      simp only [Except.bind, h, h']
      exact ⟨f, f', rfl, rfl, code⟩

/-- A value that was accepted once has a JSON form, which every graph resolves wherever it comes from. -/
theorem parseDatum_of_accepted (h : (g.parseDatum value source).outcome = .ok ()) :
    ∃ document, value.toJson = .ok document ∧
      ∀ (g' : Graph τ) source', g'.parseDatum value source' = g'.resolveAll document := by
  unfold parseDatum at h ⊢
  cases hd : value.declaration with
  | error f =>
    rw [hd] at h
    cases h
  | ok declared =>
    simp only [hd, Except.bind] at h ⊢
    split at h
    · cases h
    · next v hv =>
      split at h
      · cases h
      · next document hj =>
        refine ⟨document, hj, fun g' source' => ?_⟩
        rcases Declaration.accept_source declared source source' with ⟨_, -, h'⟩ | ⟨_, _, refused, -⟩
        · simp only [h']
        · rw [hv] at refused
          cases refused

/-- A graph whose listeners take every entity or none ends alike when it resolves a document that
was accepted before and when it loads the snapshot of that time; the new snapshot is that one. -/
theorem parse_or_load {stored : Snapshot} {g' : Graph τ} (source' : Option String)
    (h : (g.parseDatum value source).outcome = .ok ()) (steady : g'.audience.Steady)
    (read : Snapshot.ofJson (g.parseDatum value source).graph.snapshot.toJson = .ok stored) :
    let c := g'.parseDatum value source'
    let r := g'.loadJson (g.parseDatum value source).graph.snapshot.toJson true
    (c.outcome = .ok () ∧ r.outcome = .ok () ∧
        c.graph.snapshot = (g.parseDatum value source).graph.snapshot) ∨
      ∃ message message', c.outcome = .error (.planned message) ∧
        r.outcome = .error (.planned message') := by
  intro c r
  obtain ⟨document, form, resolves⟩ := parseDatum_of_accepted h
  have accepted : g.Accepted document (g.parseDatum value source) := .datum form h
  obtain ⟨visits, account, -⟩ := accepted.account
  have proper := accepted.accepts.proper
  have resolved : c = g'.resolveAll document := resolves g' source'
  obtain rfl := account.reread proper read
  have same : g'.audience.WelcomesAll (g.parseDatum value source).graph.snapshot.finite.deliveries ↔
      g'.audience.WelcomesAll (g.parseDatum value source).graph.snapshot.deliveries := by
    refine Audience.welcomesAll_iff_of_under fun k => ?_
    have nodup := account.nodup_categories
    rw [Snapshot.under_deliveries nodup]
    rw [← Dict.keys_map _ (List.map Entity.finite)] at nodup
    rw [Snapshot.under_deliveries nodup, Snapshot.get_finite, List.map_eq_nil_iff]
  obtain ⟨accepts, refuses⟩ := accepted.again steady
  obtain ⟨loads, misses⟩ := loaded_again read steady
  rw [same] at loads misses
  by_cases welcome : g'.audience.WelcomesAll (g.parseDatum value source).graph.snapshot.deliveries
  · have succeeded : c.outcome = .ok () := resolved ▸ accepts welcome
    exact .inl ⟨succeeded, loads welcome, (accepted.snapshot_eq (.datum form succeeded)).symm⟩
  · obtain ⟨message, failed⟩ := refuses welcome
    obtain ⟨message', failed'⟩ := misses welcome
    exact .inr ⟨message, message', resolved ▸ failed, failed'⟩

end Graph

/-- The listener of a generator fails at once or not at all. -/
theorem Generator.steady_listener (g : Generator) : g.listener.Steady := by
  intro n message h
  unfold listener at h
  split at h
  · exact (congrArg Prod.fst (Option.some.inj h)).symm
  · cases h

theorem Audience.Steady.subscribe (steady : a.Steady) {l : Listener τ} (hl : l.Steady) (k : Kind) :
    (a.subscribe k l).Steady := by
  intro j m hm
  rw [Audience.subscribe, Audience.of_put] at hm
  split at hm
  · rcases List.mem_append.1 hm with hm | hm
    · exact steady k m hm
    · exact List.mem_singleton.1 hm ▸ hl
  · exact steady j m hm

theorem Generator.steady_subscribe {a : Audience String} (steady : a.Steady) (g : Generator) :
    (g.subscribe a).2.Steady := by
  have each (words : List String) {a : Audience String} (steady : a.Steady) :
      (g.subscribeTo a words).2.Steady := by
    induction words generalizing a with
    | nil => exact steady
    | cons w words ih =>
      unfold subscribeTo
      split
      · exact steady
      · exact ih (steady.subscribe g.steady_listener _)
  unfold subscribe
  split
  · exact steady
  · exact each g.listens steady

/-- The members of a roster take every entity or none. -/
theorem Roster.steady_subscribe (r : Roster) : (r.subscribe []).2.Steady := by
  have all (members : List (String × Generator)) {a : Audience String} (steady : a.Steady) :
      (subscribeAll a members).2.Steady := by
    induction members generalizing a with
    | nil => exact steady
    | cons m members ih =>
      have first := m.2.steady_subscribe steady
      unfold subscribeAll
      generalize m.2.subscribe a = x at first
      obtain ⟨_ | _, a'⟩ := x
      · exact first
      · exact ih first
  exact all r.members fun k l hl => nomatch hl

end ApiGraph
