import ApiGraph.Proofs.Graph.History

/-! A listener that fails in the middle of a run. Until then the run stays in step with the one in
which this listener takes everything; then it ends, after a prefix of what the other run delivers,
and the graph is left as it was. -/

namespace ApiGraph

/-- A listener that fails with a message, with the listeners of its category that get an entity
before it and after it. -/
structure Quitter (τ : Type) where
  category : Kind
  before : List (Listener τ)
  tag : τ
  message : String
  after : List (Listener τ)

variable {τ : Type} {s s' t u : Stage τ} {category : Kind} {e : Entity}
  {xs ys : List (Kind × Entity)} {n : Nat}

/-- All listeners take everything. -/
def Audience.Records (a : Audience τ) : Prop := ∀ k, ∀ l ∈ a.of k, l.limit = none

/-- Two audiences of listeners that take everything, but for the quitter: it takes everything in the
first one only, and fails after some entities in the second. -/
structure Quitter.Parts (q : Quitter τ) (n : Nat) (a b : Audience τ) : Prop where
  records : a.Records
  stays : a.of q.category = q.before ++ ⟨q.tag, none⟩ :: q.after
  quits : b.of q.category = q.before ++ ⟨q.tag, some (n, q.message)⟩ :: q.after
  same : ∀ k, k ≠ q.category → b.of k = a.of k

/-- Two deliveries that have come to the same point. -/
structure Quitter.Abreast (q : Quitter τ) (n : Nat) (s t : Stage τ) : Prop where
  audience : q.Parts n s.audience t.audience
  snapshot : t.snapshot = s.snapshot
  heard : t.heard = s.heard
  warnings : t.warnings = s.warnings

/-- A delivery that ended before its time: with the entity that the quitter failed at, which the
listeners before it still got. -/
structure Quitter.Cut (q : Quitter τ) (n : Nat) (a : Audience τ) (xs pre : List (Kind × Entity))
    (e : Entity) (heard : List (τ × String)) : Prop where
  reached : pre ++ [(q.category, e)] <+: xs
  budget : (under q.category pre).length = n
  heard : heard = a.hears pre ++ q.before.map fun l => (l.tag, e.label)

namespace Quitter

variable {q : Quitter τ} {a b : Audience τ} {pre : List (Kind × Entity)}
  {heard : List (τ × String)}

theorem Cut.append (h : q.Cut n a xs pre e heard) (ys : List (Kind × Entity)) :
    q.Cut n a (xs ++ ys) pre e heard :=
  ⟨h.reached.trans (List.prefix_append _ _), h.budget, h.heard⟩

theorem Cut.after (h : q.Cut n a ys pre e heard) (xs : List (Kind × Entity)) :
    q.Cut ((under q.category xs).length + n) a (xs ++ ys) (xs ++ pre) e (a.hears xs ++ heard) := by
  refine ⟨?_, ?_, ?_⟩
  · rw [List.append_assoc]
    exact (List.prefix_append_right_inj xs).2 h.reached
  · rw [under_append, List.length_append, h.budget]
  · rw [h.heard, Audience.hears_append, List.append_assoc]

/-- Up to the failing call, the listeners hear what they hear of the whole delivery. -/
theorem Cut.heard_prefix (parts : q.Parts n a b) (h : q.Cut n a xs pre e heard) :
    heard ++ [(q.tag, e.label)] <+: a.hears xs := by
  obtain ⟨post, rfl⟩ := h.reached
  refine ⟨(q.after.map fun l => (l.tag, e.label)) ++ a.hears post, ?_⟩
  have turn : a.hears [(q.category, e)] = (q.before.map fun l => (l.tag, e.label)) ++
      (q.tag, e.label) :: q.after.map fun l => (l.tag, e.label) := by
    simp [Audience.hears, Audience.tags, parts.stays, Function.comp_def]
  rw [Audience.hears_append, Audience.hears_append, turn, h.heard]
  simp

end Quitter

/-- What giving an entity to some listeners that take it has done: they have heard of it. -/
structure Took (s : Stage τ) (heard : List (τ × String)) (t : Stage τ) : Prop where
  audience : t.audience.of = s.audience.of
  snapshot : t.snapshot = s.snapshot
  warnings : t.warnings = s.warnings
  heard : t.heard = s.heard ++ heard

/-- Deliveries that are abreast stay so when the same listeners take an entity. -/
theorem Took.abreast {q : Quitter τ} {heard : List (τ × String)} (h : Took s heard s')
    (abreast : q.Abreast n s t) (h' : Took t heard u) : q.Abreast n s' u where
  audience := by
    obtain ⟨records, stays, quits, same⟩ := abreast.audience
    unfold Audience.Records at records
    rw [← h.audience] at records stays same
    rw [← h'.audience] at quits same
    exact ⟨records, stays, quits, same⟩
  snapshot := by rw [h'.snapshot, abreast.snapshot, h.snapshot]
  heard := by rw [h'.heard, abreast.heard, h.heard]
  warnings := by rw [h'.warnings, abreast.warnings, h.warnings]

namespace Delivering

open Resolving

/-- Listeners that take everything get the entity, and it goes on with the others. -/
theorem run_giveFrom_append (e : Entity) (done ls rest : List (Listener τ))
    (there : s.audience.of category = done ++ (ls ++ rest)) (records : ∀ l ∈ ls, l.limit = none) :
    ∃ t, Took s (ls.map fun l => (l.tag, e.label)) t ∧
      (giveFrom category e done (ls ++ rest)).run.run s =
        (giveFrom category e (done ++ ls) rest).run.run t := by
  induction ls generalizing done s with
  | nil => exact ⟨s, ⟨rfl, rfl, rfl, (List.append_nil _).symm⟩, by rw [List.append_nil]; rfl⟩
  | cons l ls ih =>
    obtain ⟨tag, limit⟩ := l
    obtain rfl : limit = none := records _ (List.mem_cons_self ..)
    have same : Audience.of (Dict.put s.audience category (done ++ ⟨tag, none⟩ :: (ls ++ rest))) =
        s.audience.of := by
      funext k
      rw [Audience.of_put]
      split
      · next hk => rw [hk, there]; rfl
      · rfl
    let next : Stage τ := { s with
      heard := s.heard ++ [(tag, e.label)]
      audience := Dict.put s.audience category (done ++ ⟨tag, none⟩ :: (ls ++ rest)) }
    have there' : next.audience.of category = (done ++ [⟨tag, none⟩]) ++ (ls ++ rest) := by
      rw [same, there, List.append_assoc]
      rfl
    obtain ⟨t, took, run⟩ := ih _ there' fun l hl => records l (List.mem_cons_of_mem _ hl)
    refine ⟨t, ⟨took.audience.trans same, took.snapshot, took.warnings, ?_⟩, ?_⟩
    · rw [took.heard, List.map_cons, List.append_assoc]
      rfl
    · rw [List.append_assoc] at run
      exact run

/-- Listeners that take everything all get the entity. -/
theorem run_deliver (e : Entity) (records : ∀ l ∈ s.audience.of category, l.limit = none) :
    ∃ t, (deliver category e).run.run s = (.ok (), t) ∧
      Took s ((s.audience.of category).map fun l => (l.tag, e.label)) t := by
  obtain ⟨t, took, run⟩ := run_giveFrom_append e [] _ []
    (List.append_nil (s.audience.of category)).symm records
  rw [List.append_nil] at run
  exact ⟨t, run, took⟩

section Quitter

variable {q : Quitter τ}

/-- The quitter and the listeners after it get what they got from the other delivery. -/
theorem run_deliver_stays (abreast : q.Abreast (n + 1) s t)
    (hs : (deliver q.category e).run.run s = (.ok (), s')) :
    ∃ t', (deliver q.category e).run.run t = (.ok (), t') ∧ q.Abreast n s' t' := by
  obtain ⟨records, stays, quits, same⟩ := abreast.audience
  obtain ⟨_, run, took⟩ := run_deliver e (records q.category)
  cases run.symm.trans hs
  have others : ∀ l ∈ q.before ++ q.after, l.limit = none := by
    intro l hl
    refine records q.category l ?_
    rw [stays]
    simpa using (List.mem_append.1 hl).imp_right Or.inr
  obtain ⟨t₁, took₁, run₁⟩ := run_giveFrom_append e [] _ _ quits
    fun l hl => others l (List.mem_append_left _ hl)
  let t₂ : Stage τ := { t₁ with
    heard := t₁.heard ++ [(q.tag, e.label)]
    audience := Dict.put t₁.audience q.category
      (q.before ++ ⟨q.tag, some (n, q.message)⟩ :: q.after) }
  have turn : ∀ k, t₂.audience.of k =
      if k = q.category then q.before ++ ⟨q.tag, some (n, q.message)⟩ :: q.after
      else t.audience.of k := by
    intro k
    rw [Audience.of_put, took₁.audience]
  have there : t₂.audience.of q.category =
      (q.before ++ [⟨q.tag, some (n, q.message)⟩]) ++ (q.after ++ []) := by
    rw [turn, if_pos rfl]
    simp
  obtain ⟨t₃, took₃, run₃⟩ := run_giveFrom_append e _ _ _ there
    fun l hl => others l (List.mem_append_right _ hl)
  refine ⟨t₃, ?_, ⟨?_, ?_, ?_, ?_⟩, ?_, ?_, ?_⟩
  · rw [← quits] at run₁
    rw [List.append_nil] at run₃
    exact run₁.trans run₃
  · unfold Audience.Records
    rw [took.audience]
    exact records
  · rw [took.audience, stays]
  · rw [took₃.audience, turn, if_pos rfl]
  · intro k hk
    rw [took₃.audience, turn, if_neg hk, took.audience, same k hk]
  · rw [took₃.snapshot, took.snapshot]
    exact took₁.snapshot.trans abreast.snapshot
  · rw [took₃.heard, took.heard, stays]
    change t₁.heard ++ _ ++ _ = _
    rw [took₁.heard, abreast.heard]
    simp
  · rw [took₃.warnings, took.warnings]
    exact took₁.warnings.trans abreast.warnings

/-- The listeners before the quitter get the entity that it fails at. -/
theorem run_deliver_quits (e : Entity) (abreast : q.Abreast 0 s t) :
    ∃ t', (deliver q.category e).run.run t = (.error (.planned q.message), t') ∧
      Took t (q.before.map fun l => (l.tag, e.label)) t' := by
  have first : ∀ l ∈ q.before, l.limit = none := fun l hl =>
    abreast.audience.records q.category l (by simp [abreast.audience.stays, hl])
  obtain ⟨t', took, run⟩ := run_giveFrom_append e [] _ _ abreast.audience.quits first
  refine ⟨t', ?_, took⟩
  rw [← abreast.audience.quits] at run
  exact run

/-- Elsewhere the quitter is not met. -/
theorem run_deliver_elsewhere (abreast : q.Abreast n s t) (hk : category ≠ q.category)
    (hs : (deliver category e).run.run s = (.ok (), s')) :
    ∃ t', (deliver category e).run.run t = (.ok (), t') ∧ q.Abreast n s' t' := by
  have same := abreast.audience.same category hk
  have there : ∀ l ∈ t.audience.of category, l.limit = none := by
    rw [same]
    exact abreast.audience.records category
  obtain ⟨_, run, took⟩ := run_deliver e (abreast.audience.records category)
  cases run.symm.trans hs
  obtain ⟨t', run', took'⟩ := run_deliver e there
  rw [same] at took'
  exact ⟨t', run', took.abreast abreast took'⟩

end Quitter

/-- What a delivery that was made in full has done. -/
structure Whole (s : Stage τ) (xs : List (Kind × Entity)) (t : Stage τ) : Prop where
  audience : t.audience.of = s.audience.of
  heard : t.heard = s.heard ++ s.audience.hears xs
  warnings : s.warnings <+: t.warnings

namespace Whole

theorem records (h : Whole s xs t) (records : s.audience.Records) : t.audience.Records := by
  unfold Audience.Records
  rw [h.audience]
  exact records

theorem hears (h : Whole s xs t) (ys : List (Kind × Entity)) :
    t.audience.hears ys = s.audience.hears ys :=
  Audience.hears_eq_of_tags (fun k => by rw [Audience.tags, h.audience]; rfl) ys

theorem trans (h : Whole s xs t) (h' : Whole t ys u) : Whole s (xs ++ ys) u where
  audience := h'.audience.trans h.audience
  heard := by rw [h'.heard, h.heard, h.hears, Audience.hears_append, List.append_assoc]
  warnings := h.warnings.trans h'.warnings

theorem cut {q : Quitter τ} {pre : List (Kind × Entity)} {heard : List (τ × String)}
    (h : Whole s xs t) (cut : q.Cut n t.audience ys pre e heard) :
    q.Cut n s.audience ys pre e heard :=
  ⟨cut.reached, cut.budget, by rw [cut.heard, h.hears]⟩

end Whole

/-- A delivery to listeners that take everything is made in full. One with the quitter among them
stays abreast of it as long as the quitter takes its entities, and is cut short by the first that it
does not take. -/
structure Follows (q : Quitter τ) (xs : List (Kind × Entity)) (d : Delivering τ Unit) : Prop where
  whole : ∀ s, s.audience.Records → ∃ s', d.run.run s = (.ok (), s') ∧ Whole s xs s'
  within : ∀ n s s' t, q.Abreast n s t → d.run.run s = (.ok (), s') →
    (under q.category xs).length ≤ n →
    ∃ t', d.run.run t = (.ok (), t') ∧ q.Abreast (n - (under q.category xs).length) s' t'
  beyond : ∀ n s s' t, q.Abreast n s t → d.run.run s = (.ok (), s') →
    n < (under q.category xs).length →
    ∃ t' pre e heard, d.run.run t = (.error (.planned q.message), t') ∧
      t'.heard = s.heard ++ heard ∧ q.Cut n s.audience xs pre e heard ∧ t'.warnings <+: s'.warnings

namespace Follows

variable {q : Quitter τ} {d d' : Delivering τ Unit}

theorem skip : Follows q [] (pure ()) where
  whole s _ := ⟨s, rfl, rfl, (List.append_nil _).symm, List.prefix_rfl⟩
  within n s s' t abreast hs _ := by
    cases hs
    exact ⟨t, rfl, abreast⟩
  beyond n s s' t _ _ hn := absurd hn (Nat.not_lt_zero n)

theorem bind (h : Follows q xs d) (h' : Follows q ys d') :
    Follows q (xs ++ ys) (d >>= fun _ => d') where
  whole s records := by
    obtain ⟨s₁, hs₁, whole₁⟩ := h.whole s records
    obtain ⟨s₂, hs₂, whole₂⟩ := h'.whole s₁ (whole₁.records records)
    exact ⟨s₂, by rw [run_bind, hs₁]; exact hs₂, whole₁.trans whole₂⟩
  within n s s₂ t abreast hs hn := by
    rw [under_append, List.length_append] at hn ⊢
    obtain ⟨s₁, hs₁, -⟩ := h.whole s abreast.audience.records
    obtain ⟨t₁, ht₁, abreast₁⟩ := h.within n s s₁ t abreast hs₁ (by omega)
    rw [run_bind, hs₁] at hs
    obtain ⟨t₂, ht₂, abreast₂⟩ := h'.within _ s₁ s₂ t₁ abreast₁ hs (by omega)
    rw [Nat.sub_sub] at abreast₂
    exact ⟨t₂, by rw [run_bind, ht₁]; exact ht₂, abreast₂⟩
  beyond n s s₂ t abreast hs hn := by
    rw [under_append, List.length_append] at hn
    obtain ⟨s₁, hs₁, whole₁⟩ := h.whole s abreast.audience.records
    obtain ⟨_, hs₂, whole₂⟩ := h'.whole s₁ (whole₁.records abreast.audience.records)
    rw [run_bind, hs₁] at hs
    cases hs₂.symm.trans hs
    by_cases first : n < (under q.category xs).length
    · obtain ⟨t', pre, e, heard, ht, told, cut, warned⟩ := h.beyond n s s₁ t abreast hs₁ first
      exact ⟨t', pre, e, heard, by rw [run_bind, ht], told, cut.append ys,
        warned.trans whole₂.warnings⟩
    · obtain ⟨t₁, ht₁, abreast₁⟩ := h.within n s s₁ t abreast hs₁ (Nat.le_of_not_lt first)
      obtain ⟨t', pre, e, heard, ht, told, cut, warned⟩ :=
        h'.beyond _ s₁ s₂ t₁ abreast₁ hs (by omega)
      have total := (whole₁.cut cut).after xs
      rw [Nat.add_sub_cancel' (Nat.le_of_not_lt first)] at total
      refine ⟨t', xs ++ pre, e, _, by rw [run_bind, ht₁]; exact ht, ?_, total, warned⟩
      rw [told, whole₁.heard, List.append_assoc]

theorem forM {α : Type} {f : α → Delivering τ Unit} {g : α → List (Kind × Entity)} (as : List α)
    (h : ∀ x ∈ as, Follows q (g x) (f x)) : Follows q (as.flatMap g) (as.forM f) := by
  induction as with
  | nil => exact skip
  | cons x as ih =>
    exact (h x (List.mem_cons_self ..)).bind (ih fun y hy => h y (List.mem_cons_of_mem _ hy))

/-- Each entity is given to the listeners of its category one after the other. -/
theorem deliver (q : Quitter τ) (k : Kind) (e : Entity) :
    Follows q [(k, e)] (Delivering.deliver k e) where
  whole s records := by
    obtain ⟨t, run, took⟩ := run_deliver e (records k)
    refine ⟨t, run, took.audience, ?_, took.warnings ▸ List.prefix_rfl⟩
    rw [took.heard]
    simp [Audience.hears, Audience.tags, Function.comp_def]
  within n s s' t abreast hs hn := by
    by_cases hk : k = q.category
    · subst hk
      have one : (under q.category [(q.category, e)]).length = 1 := by simp [under]
      rw [one] at hn ⊢
      obtain ⟨m, rfl⟩ := Nat.exists_eq_add_of_le' hn
      exact run_deliver_stays abreast hs
    · have none : (under q.category [(k, e)]).length = 0 := by simp [under, hk]
      rw [none]
      exact run_deliver_elsewhere abreast hk hs
  beyond n s s' t abreast hs hn := by
    have hk : k = q.category := by
      by_contra hk
      simp [under, hk] at hn
    subst hk
    obtain rfl : n = 0 := by simpa [under] using hn
    obtain ⟨_, run, took⟩ := run_deliver e (abreast.audience.records q.category)
    cases run.symm.trans hs
    obtain ⟨t', run', took'⟩ := run_deliver_quits e abreast
    refine ⟨t', [], e, q.before.map fun l => (l.tag, e.label), run', ?_,
      ⟨List.prefix_rfl, rfl, rfl⟩, ?_⟩
    · rw [took'.heard, abreast.heard]
    · exact ⟨[], by rw [List.append_nil, took'.warnings, abreast.warnings, took.warnings]⟩

/-- A change that nobody hears of. -/
theorem update {f : Stage τ → Stage τ} (audience : ∀ s, (f s).audience = s.audience)
    (heard : ∀ s, (f s).heard = s.heard) (warned : ∀ s, s.warnings <+: (f s).warnings)
    (same : ∀ n s t, q.Abreast n s t → q.Abreast n (f s) (f t)) :
    Follows q [] (modify f : Delivering τ Unit) where
  whole s _ :=
    ⟨f s, rfl, by rw [audience], (heard s).trans (List.append_nil _).symm, warned s⟩
  within n s s' t abreast hs _ := by
    cases hs
    exact ⟨f t, rfl, same n s t abreast⟩
  beyond n s s' t _ _ hn := absurd hn (Nat.not_lt_zero n)

theorem emit (q : Quitter τ) (x : List Kind × Entity) :
    Follows q (spread x) (Delivering.emit x.1 x.2) := by
  have recorded (k : Kind) : Follows q []
      (modify fun s => { s with snapshot := s.snapshot.record k x.2 }) :=
    update (fun _ => rfl) (fun _ => rfl) (fun _ => List.prefix_rfl)
      fun n s t h => ⟨h.audience, by rw [h.snapshot], h.heard, h.warnings⟩
  have all := forM x.1 fun k _ => (recorded k).bind (deliver q k x.2)
  simp only [List.nil_append, ← List.map_eq_flatMap] at all
  exact all

/-- The notices of a walk are delivered in order. -/
theorem play (q : Quitter τ) (notices : List Notice) :
    Follows q ((notices.filterMap Notice.entity?).flatMap spread) (Delivering.play notices) := by
  have acted : ∀ notice ∈ notices,
      Follows q (notice.entity?.toList.flatMap spread) (Delivering.act notice) := by
    intro notice _
    cases notice with
    | entity categories e =>
      rw [Notice.entity?, Option.toList_some, List.flatMap_singleton]
      exact emit q (categories, e)
    | warning text =>
      exact update (fun _ => rfl) (fun _ => rfl) (fun _ => List.prefix_append _ _)
        fun n s t h => ⟨h.audience, h.snapshot, h.heard, by rw [h.warnings]⟩
  rw [List.filterMap_eq_flatMap_toList, List.flatMap_assoc]
  exact forM notices acted

end Follows

end Delivering

/-- What a document is delivered as until its run ends, with the categories. -/
def Walk.deliveries (document : Json) : List (Kind × Entity) :=
  ((walk document).run.run .start).2.emitted.flatMap spread

namespace Graph

/-- A graph is asked to resolve a document. -/
def Call.Parses : Call τ → Prop
  | .parse _ _ => True
  | .parseDatum _ _ => True
  | _ => False

/-- The document that is walked through for a call: one of an accepted version. -/
def Call.walked? : Call τ → Option Json
  | .parse document source => (declaredVersion document source).toOption.map fun _ => document
  | .parseDatum value source =>
    (value.declaration.bind fun declared => Declaration.accept declared source).toOption.bind
      fun _ => value.toJson.toOption
  | _ => none

/-- What is delivered for a call until its run ends, with the categories. -/
def Call.deliveries (c : Call τ) : List (Kind × Entity) := c.walked?.elim [] Walk.deliveries

/-- A call refuses its document whoever listens, or walks through it. -/
theorem make_parses {c : Call τ} (parses : c.Parses) :
    (c.walked? = none ∧ ∃ f, ∀ g : Graph τ, g.make c = g.refused f) ∨
      ∃ document, c.walked? = some document ∧ ∀ g : Graph τ, g.make c = g.resolveAll document := by
  cases c with
  | parse document source =>
    simp only [Call.walked?, make, Graph.parse]
    cases declaredVersion document source with
    | error f => exact .inl ⟨rfl, f, fun _ => rfl⟩
    | ok v => exact .inr ⟨document, rfl, fun _ => rfl⟩
  | parseDatum value source =>
    simp only [Call.walked?, make, Graph.parseDatum]
    cases value.declaration.bind fun declared => Declaration.accept declared source with
    | error f => exact .inl ⟨rfl, f, fun _ => rfl⟩
    | ok v =>
      cases value.toJson with
      | error flaw => exact .inl ⟨rfl, copyFailure flaw, fun _ => rfl⟩
      | ok document => exact .inr ⟨document, rfl, fun _ => rfl⟩
  | _ => exact parses.elim

variable {g g' : Graph τ} {q : Quitter τ}

/-- A listener that fails ends the run, whatever became of the walk. -/
theorem resolveAll_ended {document : Json} {f : Failure}
    (h : (Delivering.play ((walk document).run.run .start).2.notices).run.run g.stage =
      (.error f, s)) :
    g.resolveAll document = ⟨.error f, { g with audience := s.audience }, s.heard, s.warnings⟩ := by
  unfold resolveAll
  generalize (walk document).run.run .start = w at h ⊢
  obtain ⟨walked, progress⟩ := w
  dsimp only at h ⊢
  rw [h]

/-- Two graphs make the same of a document if the same is delivered of it to their listeners. -/
theorem resolveAll_played {document : Json}
    (content : g'.content = g.content) (snapshot : s'.snapshot = s.snapshot)
    (h : (Delivering.play ((walk document).run.run .start).2.notices).run.run g.stage = (.ok (), s))
    (h' : (Delivering.play ((walk document).run.run .start).2.notices).run.run g'.stage =
      (.ok (), s')) :
    (g.resolveAll document).heard = s.heard ∧ (g.resolveAll document).warnings = s.warnings ∧
      (g'.resolveAll document).heard = s'.heard ∧
      (g'.resolveAll document).warnings = s'.warnings ∧
      (g'.resolveAll document).outcome = (g.resolveAll document).outcome ∧
      (g'.resolveAll document).graph.content = (g.resolveAll document).graph.content := by
  unfold resolveAll
  generalize (walk document).run.run .start = w at h h' ⊢
  obtain ⟨walked, progress⟩ := w
  dsimp only at h h' ⊢
  rw [h, h']
  cases walked with
  | error f => exact ⟨rfl, rfl, rfl, rfl, rfl, content⟩
  | ok arena => exact ⟨rfl, rfl, rfl, rfl, rfl, by simp only [Graph.content, snapshot]⟩

/-- A walk is delivered in full, or until the quitter fails. -/
theorem resolveAll_cut (content : g'.content = g.content) (parts : q.Parts n g.audience g'.audience)
    (document : Json) :
    let plain := g.resolveAll document
    let cut := g'.resolveAll document
    plain.heard = g.audience.hears (Walk.deliveries document) ∧
      ((under q.category (Walk.deliveries document)).length ≤ n →
        cut.outcome = plain.outcome ∧ cut.heard = plain.heard ∧ cut.warnings = plain.warnings ∧
          cut.graph.content = plain.graph.content) ∧
      (n < (under q.category (Walk.deliveries document)).length →
        ∃ pre e, q.Cut n g.audience (Walk.deliveries document) pre e cut.heard ∧
          cut.outcome = .error (.planned q.message) ∧ cut.warnings <+: plain.warnings ∧
          cut.graph.content = g.content) := by
  intro plain cut
  have follows := Delivering.Follows.play q ((walk document).run.run .start).2.notices
  have abreast : q.Abreast n g.stage g'.stage := ⟨parts, rfl, rfl, rfl⟩
  obtain ⟨s, hs, whole⟩ := follows.whole g.stage parts.records
  obtain ⟨heard, warnings, -⟩ := resolveAll_played rfl rfl hs hs
  refine ⟨heard.trans whole.heard, fun hn => ?_, fun hn => ?_⟩
  · obtain ⟨t, ht, abreast'⟩ := follows.within n _ _ _ abreast hs hn
    obtain ⟨-, -, heard', warnings', outcome, same⟩ :=
      resolveAll_played content abreast'.snapshot hs ht
    exact ⟨outcome, heard'.trans (abreast'.heard.trans heard.symm),
      warnings'.trans (abreast'.warnings.trans warnings.symm), same⟩
  · obtain ⟨t, pre, e, told, ht, hheard, short, warned⟩ := follows.beyond n _ _ _ abreast hs hn
    have ended : cut = _ := resolveAll_ended ht
    obtain rfl : t.heard = told := hheard
    rw [ended]
    exact ⟨pre, e, short, rfl, warnings ▸ warned, content⟩

/-- A listener that fails at an entity cuts a run to a prefix: the listeners hear what they hear if
it takes everything, up to the call that fails; the run ends with its failure, and the graph holds
what it held. If the listener gets no entity to fail at, it makes no difference. -/
theorem failing_listener_cuts_run (content : g'.content = g.content)
    (parts : q.Parts n g.audience g'.audience) {c : Call τ} (parses : c.Parses) :
    let plain := g.make c
    let cut := g'.make c
    plain.heard = g.audience.hears c.deliveries ∧
      ((under q.category c.deliveries).length ≤ n →
        cut.outcome = plain.outcome ∧ cut.heard = plain.heard ∧ cut.warnings = plain.warnings ∧
          cut.graph.content = plain.graph.content) ∧
      (n < (under q.category c.deliveries).length →
        ∃ pre e, q.Cut n g.audience c.deliveries pre e cut.heard ∧
          cut.heard ++ [(q.tag, e.label)] <+: plain.heard ∧
          cut.outcome = .error (.planned q.message) ∧ cut.warnings <+: plain.warnings ∧
          cut.graph.content = g.content) := by
  intro plain cut
  rcases make_parses parses with ⟨nothing, f, refused⟩ | ⟨document, walked, made⟩
  · have none : c.deliveries = [] := by rw [Call.deliveries, nothing]; rfl
    have hp : plain = g.refused f := refused g
    have hc : cut = g'.refused f := refused g'
    rw [none, hp, hc]
    exact ⟨rfl, fun _ => ⟨rfl, rfl, rfl, content⟩, fun hn => absurd hn (Nat.not_lt_zero n)⟩
  · have all : c.deliveries = Walk.deliveries document := by rw [Call.deliveries, walked]; rfl
    have hp : plain = g.resolveAll document := made g
    have hc : cut = g'.resolveAll document := made g'
    obtain ⟨heard, within, beyond⟩ := resolveAll_cut content parts document
    rw [all, hp, hc]
    refine ⟨heard, within, fun hn => ?_⟩
    obtain ⟨pre, e, short, outcome, warned, same⟩ := beyond hn
    exact ⟨pre, e, short, heard ▸ short.heard_prefix parts, outcome, warned, same⟩

/-- The second operation is one too many for the first of two listeners. -/
theorem failing_listener_cuts_run_twins :
    let q : Quitter String := ⟨.method, [], "hasty", "enough", [⟨"patient", none⟩]⟩
    let g : Graph String := (empty.on .method ⟨"hasty", none⟩).on .method ⟨"patient", none⟩
    let g' : Graph String :=
      (empty.on .method ⟨"hasty", some (1, "enough")⟩).on .method ⟨"patient", none⟩
    let cut := g'.make (.parse twins none)
    g'.content = g.content ∧ q.Parts 1 g.audience g'.audience ∧
      (Call.parse twins none : Call String).Parses ∧
      cut.heard = [("hasty", "get /pets"), ("patient", "get /pets")] ∧
      cut.outcome = .error (.planned "enough") ∧ cut.graph.content = g.content := by
  intro q g g' cut
  have listeners : ∀ k, g.audience.of k =
      if k = .method then [⟨"hasty", none⟩, ⟨"patient", none⟩] else [] := by
    intro k
    cases k <;> rfl
  have parts : q.Parts 1 g.audience g'.audience := by
    refine ⟨fun k l hl => ?_, rfl, rfl, fun k hk => ?_⟩
    · rw [listeners] at hl
      split at hl
      · simp only [List.mem_cons, List.not_mem_nil, or_false] at hl
        rcases hl with rfl | rfl <;> rfl
      · cases hl
    · cases k <;> first | rfl | exact absurd rfl hk
  have enough : 1 < (under .method (Call.parse twins none : Call String).deliveries).length := by
    decide +kernel
  have parses : (Call.parse twins none : Call String).Parses := trivial
  have content : g'.content = g.content := rfl
  obtain ⟨-, -, beyond⟩ := failing_listener_cuts_run content parts parses
  obtain ⟨pre, e, -, -, outcome, -, same⟩ := beyond enough
  exact ⟨content, parts, parses, by decide +kernel, outcome, same⟩

end Graph

end ApiGraph
