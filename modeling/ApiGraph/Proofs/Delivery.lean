import ApiGraph.Delivery
import ApiGraph.Proofs.Resolve.Notices
import Mathlib.Data.List.Basic

/-! What a delivery records. Listeners see entities and change nothing in the record, which holds
each entity under its categories, in the order of delivery. -/

namespace ApiGraph

namespace Snapshot

/-- The record with one more entity under all its categories. -/
def recordUnder (s : Snapshot) (x : List Kind × Entity) : Snapshot :=
  x.1.foldl (fun s category => s.record category x.2) s

/-- The record with some more entities, each under all its categories. -/
def recordAll (s : Snapshot) (xs : List (List Kind × Entity)) : Snapshot := xs.foldl recordUnder s

theorem get_record (s : Snapshot) (category k : Kind) (e : Entity) :
    (s.record category e).get k = if category = k then s.get k ++ [e] else s.get k := by
  unfold record get
  split
  · next h =>
    subst h
    simp
  · next h => rw [Dict.lookup_put_of_ne _ _ (by simpa using fun he : k = category => h he.symm)]

theorem get_recordUnder (s : Snapshot) (x : List Kind × Entity) (k : Kind) :
    (s.recordUnder x).get k = s.get k ++ List.replicate (x.1.count k) x.2 := by
  obtain ⟨categories, e⟩ := x
  unfold recordUnder
  dsimp only
  induction categories generalizing s with
  | nil => simp
  | cons category rest ih =>
    rw [List.foldl_cons, ih, get_record]
    split
    · next h => simp [h, List.replicate_succ]
    · next h => simp [h]

theorem get_recordAll (s : Snapshot) (xs : List (List Kind × Entity)) (k : Kind) :
    (s.recordAll xs).get k = s.get k ++ xs.flatMap fun x => List.replicate (x.1.count k) x.2 := by
  unfold recordAll
  induction xs generalizing s with
  | nil => simp
  | cons x xs ih => rw [List.foldl_cons, ih, get_recordUnder, List.flatMap_cons, List.append_assoc]

end Snapshot

namespace Delivering

open Resolving

variable {τ : Type} {e : Entity} {category : Kind} {s t : Stage τ}

theorem kept_give (e : Entity) (l : Listener τ) (s : Stage τ) :
    ((give e l).run.run s).2.snapshot = s.snapshot ∧
      ((give e l).run.run s).2.warnings = s.warnings := by
  unfold give
  split <;> exact ⟨rfl, rfl⟩

/-- Listeners do not change the record or the log, even one that ends the delivery. -/
theorem kept_giveFrom (category : Kind) (e : Entity) (done rest : List (Listener τ)) (s : Stage τ) :
    ((giveFrom category e done rest).run.run s).2.snapshot = s.snapshot ∧
      ((giveFrom category e done rest).run.run s).2.warnings = s.warnings := by
  induction rest generalizing done s with
  | nil => exact ⟨rfl, rfl⟩
  | cons l rest ih =>
    have hl := kept_give e l s
    unfold giveFrom
    rw [run_bind]
    generalize (give e l).run.run s = x at hl
    obtain ⟨l', s'⟩ := x
    cases l' with
    | error f => exact hl
    | ok l' =>
      dsimp only
      rw [run_bind]
      obtain ⟨snapshot, warnings⟩ := ih (done ++ [l'])
        { s' with audience := Dict.put s'.audience category (done ++ l' :: rest) }
      exact ⟨snapshot.trans hl.1, warnings.trans hl.2⟩

theorem run_emitUnder (h : (emitUnder e category).run.run s = (.ok (), t)) :
    t.snapshot = s.snapshot.record category e ∧ t.warnings = s.warnings := by
  unfold emitUnder at h
  rw [run_bind] at h
  have hd := kept_giveFrom category e [] (s.audience.of category)
    { s with snapshot := s.snapshot.record category e }
  change (giveFrom category e [] (s.audience.of category)).run.run
    { s with snapshot := s.snapshot.record category e } = _ at h
  rw [h] at hd
  exact hd

theorem run_emit {categories : List Kind} (h : (emit categories e).run.run s = (.ok (), t)) :
    t.snapshot = s.snapshot.recordUnder (categories, e) ∧ t.warnings = s.warnings := by
  unfold emit at h
  induction categories generalizing s with
  | nil =>
    cases h
    exact ⟨rfl, rfl⟩
  | cons category rest ih =>
    change (emitUnder e category >>= fun _ => rest.forM (emitUnder e)).run.run s = _ at h
    rw [run_bind] at h
    split at h
    · next u s' hs =>
      obtain ⟨recorded, same⟩ := run_emitUnder hs
      obtain ⟨all, kept⟩ := ih h
      rw [all, kept, recorded, same]
      exact ⟨rfl, rfl⟩
    · cases h

/-- A delivery that nobody ended has recorded all its entities and logged all its warnings. -/
theorem run_play {notices : List Notice} (h : (play notices).run.run s = (.ok (), t)) :
    t.snapshot = s.snapshot.recordAll (notices.filterMap Notice.entity?) ∧
      t.warnings = s.warnings ++ notices.filterMap Notice.warning? := by
  unfold play at h
  induction notices generalizing s with
  | nil =>
    cases h
    exact ⟨rfl, (List.append_nil _).symm⟩
  | cons notice rest ih =>
    change (act notice >>= fun _ => rest.forM act).run.run s = _ at h
    rw [run_bind] at h
    split at h
    · next u s' hs =>
      obtain ⟨all, logged⟩ := ih h
      rw [all, logged]
      cases notice with
      | entity categories e =>
        obtain ⟨recorded, same⟩ := run_emit hs
        rw [recorded, same]
        exact ⟨rfl, rfl⟩
      | warning text =>
        cases hs
        exact ⟨rfl, List.append_assoc _ _ _⟩
    · cases h

end Delivering

namespace Audience

variable {τ : Type}

/-- The tags of the listeners of a category. -/
def tags (a : Audience τ) (category : Kind) : List τ := (a.of category).map Listener.tag

/-- What the listeners hear of some deliveries when none of them fails. -/
def hears (a : Audience τ) (xs : List (Kind × Entity)) : List (τ × String) :=
  xs.flatMap fun x => (a.tags x.1).map fun tag => (tag, x.2.label)

theorem hears_append (a : Audience τ) (xs ys : List (Kind × Entity)) :
    a.hears (xs ++ ys) = a.hears xs ++ a.hears ys := List.flatMap_append

theorem hears_eq_of_tags {a b : Audience τ} (h : ∀ k, a.tags k = b.tags k) (xs : List (Kind × Entity)) :
    a.hears xs = b.hears xs := by
  simp only [hears, h]

theorem of_put (a : Audience τ) (category k : Kind) (ls : List (Listener τ)) :
    Audience.of (Dict.put a category ls) k = if k = category then ls else a.of k := by
  unfold of
  split
  · next h =>
    subst h
    rw [Dict.lookup_put_self]
    rfl
  · next h => rw [Dict.lookup_put_of_ne _ _ (beq_false_of_ne h)]

end Audience

/-- What a delivery that nobody ended has done: every listener of a category got its entities, and
all of them still listen. -/
structure Delivered {τ : Type} (s : Stage τ) (xs : List (Kind × Entity)) (t : Stage τ) : Prop where
  heard : t.heard = s.heard ++ s.audience.hears xs
  tags : ∀ k, t.audience.tags k = s.audience.tags k

namespace Delivered

open Delivering Resolving

variable {τ : Type} {s t u : Stage τ} {xs ys : List (Kind × Entity)} {e : Entity} {category : Kind}

theorem refl (s : Stage τ) : Delivered s [] s := ⟨(List.append_nil _).symm, fun _ => rfl⟩

theorem trans (h₁ : Delivered s xs t) (h₂ : Delivered t ys u) : Delivered s (xs ++ ys) u := by
  refine ⟨?_, fun k => (h₂.tags k).trans (h₁.tags k)⟩
  rw [h₂.heard, h₁.heard, Audience.hears_eq_of_tags h₁.tags, Audience.hears_append, List.append_assoc]

theorem give {l l' : Listener τ} (h : (Delivering.give e l).run.run s = (.ok l', t)) :
    l'.tag = l.tag ∧ t = { s with heard := s.heard ++ [(l.tag, e.label)] } := by
  unfold Delivering.give at h
  split at h
  · cases h
    exact ⟨rfl, rfl⟩
  · cases h
  · cases h
    exact ⟨rfl, rfl⟩

/-- The listeners that are left get the entity one after the other. -/
theorem giveFrom {done rest : List (Listener τ)}
    (h : (Delivering.giveFrom category e done rest).run.run s = (.ok (), t))
    (hs : s.audience.tags category = (done ++ rest).map Listener.tag) :
    t.heard = s.heard ++ rest.map (fun l => (l.tag, e.label)) ∧
      ∀ k, t.audience.tags k = s.audience.tags k := by
  induction rest generalizing done s with
  | nil =>
    cases h
    exact ⟨(List.append_nil _).symm, fun _ => rfl⟩
  | cons l rest ih =>
    unfold Delivering.giveFrom at h
    rw [run_bind] at h
    split at h
    · next l' s' hl =>
      rw [run_bind] at h
      obtain ⟨htag, rfl⟩ := give hl
      have same : ∀ k, Audience.tags (Dict.put s.audience category (done ++ l' :: rest)) k =
          s.audience.tags k := by
        intro k
        rw [Audience.tags, Audience.of_put]
        split
        · next hk =>
          rw [hk, hs, List.map_append, List.map_append, List.map_cons, List.map_cons, htag]
        · rfl
      obtain ⟨heard, kept⟩ := ih h (by
        rw [show (done ++ [l']) ++ rest = done ++ l' :: rest by simp]
        change Audience.tags (Dict.put s.audience category (done ++ l' :: rest)) category = _
        rw [Audience.tags, Audience.of_put, if_pos rfl])
      refine ⟨?_, fun k => (kept k).trans (same k)⟩
      rw [heard, List.map_cons, List.append_assoc]
      rfl
    · cases h

theorem deliver (h : (Delivering.deliver category e).run.run s = (.ok (), t)) :
    Delivered s [(category, e)] t := by
  obtain ⟨heard, tags⟩ := @giveFrom _ _ _ _ _ [] _ h rfl
  refine ⟨?_, tags⟩
  rw [heard]
  simp [Audience.hears, Audience.tags]

theorem emitUnder (h : (Delivering.emitUnder e category).run.run s = (.ok (), t)) :
    Delivered s [(category, e)] t := by
  unfold Delivering.emitUnder at h
  rw [run_bind] at h
  have delivered := deliver (s := { s with snapshot := s.snapshot.record category e }) h
  exact ⟨delivered.heard, delivered.tags⟩

/-- What holds of each round of a delivery holds of all. -/
theorem forM {α : Type} {f : α → Delivering τ Unit} {g : α → List (Kind × Entity)} {as : List α}
    (one : ∀ a s t, (f a).run.run s = (.ok (), t) → Delivered s (g a) t)
    (h : (as.forM f).run.run s = (.ok (), t)) : Delivered s (as.flatMap g) t := by
  induction as generalizing s with
  | nil =>
    cases h
    exact refl _
  | cons a as ih =>
    change (f a >>= fun _ => as.forM f).run.run s = _ at h
    rw [run_bind] at h
    split at h
    · next u s' hs => exact (one _ _ _ hs).trans (ih h)
    · cases h

end Delivered

/-- The deliveries of an entity, one for each of its categories. -/
def spread (x : List Kind × Entity) : List (Kind × Entity) := x.1.map fun k => (k, x.2)

namespace Delivered

variable {τ : Type} {s t : Stage τ}

/-- Listeners get the entities of all notices under all their categories. -/
theorem play {notices : List Notice}
    (h : (Delivering.play notices).run.run s = (.ok (), t)) :
    Delivered s ((notices.filterMap Notice.entity?).flatMap spread) t := by
  have acted : ∀ notice s t, ((Delivering.act notice).run.run s : Except Failure Unit × Stage τ) =
      (.ok (), t) → Delivered s (notice.entity?.toList.flatMap spread) t := by
    intro notice s t h
    cases notice with
    | entity categories e =>
      have emitted := forM (g := fun k => [(k, e)]) (fun _ _ _ => emitUnder) h
      rw [← List.map_eq_flatMap] at emitted
      simpa [Notice.entity?, spread] using emitted
    | warning text =>
      cases h
      exact ⟨(List.append_nil _).symm, fun _ => rfl⟩
  have all := forM acted h
  rwa [← List.flatMap_assoc, ← List.filterMap_eq_flatMap_toList] at all

theorem replay {snapshot : Snapshot} (h : (Delivering.replay snapshot).run.run s = (.ok (), t)) :
    Delivered s snapshot.deliveries t := by
  have all := forM (g := fun x => [x]) (fun _ _ _ => deliver) h
  simpa using all

end Delivered

end ApiGraph
