import ApiGraph.Emitter
import ApiGraph.Proofs.Course

/-! Families of emitters. After any deeds, the listeners of an emitter are those that subscribed at any
emitter of its family, and its snapshot holds what was emitted on it, category by category. What the
next delivery does follows from these two. -/

namespace ApiGraph

variable {τ : Type}

/-- Writing a key that is there changes its value and nothing else. -/
theorem Dict.put_map {κ α : Type} [BEq κ] [LawfulBEq κ] [DecidableEq κ] {keys : List κ} {k : κ}
    (nodup : keys.Nodup) (there : k ∈ keys) (f : κ → α) (v : α) :
    Dict.put (keys.map fun j => (j, f j)) k v = keys.map fun j => (j, if j = k then v else f j) := by
  induction keys with
  | nil => cases there
  | cons j keys ih =>
    obtain ⟨fresh, nodup⟩ := List.nodup_cons.1 nodup
    rw [List.map_cons, List.map_cons, Dict.put]
    by_cases hj : k = j
    · subst hj
      rw [if_pos (beq_self_eq_true k), if_pos rfl]
      refine congrArg _ (List.map_congr_left fun i hi => ?_)
      have other : i ≠ k := fun h => fresh (h ▸ hi)
      rw [if_neg other]
    · rw [if_neg (by simpa using hj), if_neg (Ne.symm hj),
        ih nodup ((List.mem_cons.1 there).resolve_left hj)]

namespace Snapshot

/-- The record with some more deliveries. -/
def recordEach (s : Snapshot) (xs : List (Kind × Entity)) : Snapshot :=
  xs.foldl (fun s x => s.record x.1 x.2) s

/-- Deliveries by category, the categories in the order in which they come first. -/
def sorted (xs : List (Kind × Entity)) : Dict Kind (List Entity) :=
  (xs.map Prod.fst).eraseDups.map fun k => (k, under k xs)

theorem recordEach_append (s : Snapshot) (xs ys : List (Kind × Entity)) :
    s.recordEach (xs ++ ys) = (s.recordEach xs).recordEach ys := List.foldl_append

theorem get_recordEach (s : Snapshot) (xs : List (Kind × Entity)) (k : Kind) :
    (s.recordEach xs).get k = s.get k ++ under k xs := by
  induction xs generalizing s with
  | nil => exact (List.append_nil _).symm
  | cons x xs ih =>
    have first : under k ([x] ++ xs) = under k [x] ++ under k xs := under_append
    rw [show x :: xs = [x] ++ xs from rfl, first, ← List.append_assoc]
    refine (ih (s.record x.1 x.2)).trans (congrArg (· ++ under k xs) ?_)
    rw [get_record]
    split
    · next h => simp [under, h]
    · next h => simp [under, h]

theorem nodup_keys_recordEach {s : Snapshot} (h : (Dict.keys s.events).Nodup)
    (xs : List (Kind × Entity)) : (Dict.keys (s.recordEach xs).events).Nodup := by
  induction xs generalizing s with
  | nil => exact h
  | cons x xs ih => exact ih (s := s.record x.1 x.2) (Dict.nodup_keys_put _ _ h)

/-- A snapshot that began with nothing holds its deliveries by category. -/
theorem events_recordEach (xs : List (Kind × Entity)) : (empty.recordEach xs).events = sorted xs := by
  induction xs using List.reverseRecOn with
  | nil => rfl
  | append_singleton xs x ih =>
    have nodup := nodup_keys_recordEach (s := empty) List.nodup_nil xs
    have got : (empty.recordEach xs).get x.1 = under x.1 xs := by
      rw [get_recordEach]
      rfl
    have last (k : Kind) : under k (xs ++ [x]) = under k xs ++ under k [x] := under_append
    have keys : Dict.keys (sorted xs) = (xs.map Prod.fst).eraseDups := by
      simp [Dict.keys, sorted, Function.comp_def]
    rw [ih, keys] at nodup
    rw [recordEach_append]
    change Dict.put (empty.recordEach xs).events x.1 ((empty.recordEach xs).get x.1 ++ [x.2]) = _
    rw [ih, got]
    conv_rhs => rw [sorted, List.map_append, List.eraseDups_append, List.map_append]
    by_cases hx : x.1 ∈ (xs.map Prod.fst).eraseDups
    · have none : ([x].map Prod.fst).removeAll (xs.map Prod.fst) = [] := by
        simpa [List.removeAll] using hx
      rw [none, sorted, Dict.put_map nodup hx]
      simp only [List.eraseDups_nil, List.map_nil, List.append_nil]
      refine List.map_congr_left fun k _ => ?_
      rw [last]
      split
      · next h => simp [under, h]
      · next h => simp [under, Ne.symm h]
    · have one : ([x].map Prod.fst).removeAll (xs.map Prod.fst) = [x.1] := by
        simpa [List.removeAll] using hx
      have absent : Dict.has (sorted xs) x.1 = false := by
        rw [← Bool.not_eq_true, ← Dict.mem_keys_iff_has, keys]
        exact hx
      rw [one, Dict.put_of_not_has _ _ _ absent, sorted]
      refine congrArg₂ (· ++ ·) (List.map_congr_left fun k hk => ?_) ?_
      · have other : x.1 ≠ k := fun h => hx (h ▸ hk)
        rw [last]
        simp [under, other]
      · rw [show [x.1].eraseDups = [x.1] from rfl, List.map_singleton, last]
        simp [under]

end Snapshot

namespace Emitters

/-- How many families were founded, and the family of each emitter. -/
structure Kinship where
  founded : Nat
  families : List Nat

/-- An emitter that is made founds a family; one that is forked belongs to that of the other one. -/
def Kinship.step (c : Kinship) : Deed τ → Kinship
  | .create => ⟨c.founded + 1, c.families ++ [c.founded]⟩
  | .fork x => ⟨c.founded, c.families ++ (c.families[x]?).toList⟩
  | _ => c

/-- Every family was founded. -/
def Kinship.IsSound (c : Kinship) : Prop := ∀ t ∈ c.families, t < c.founded

theorem Kinship.IsSound.step {c : Kinship} (h : c.IsSound) (d : Deed τ) : (c.step d).IsSound := by
  cases d with
  | create =>
    intro t ht
    rcases List.mem_append.1 ht with ht | ht
    · exact Nat.lt_succ_of_lt (h t ht)
    · rw [List.mem_singleton.1 ht]
      exact Nat.lt_succ_self _
  | fork x =>
    intro t ht
    rcases List.mem_append.1 ht with ht | ht
    · exact h t ht
    · exact h t (List.mem_of_getElem? (Option.mem_toList.1 ht))
  | on | emit | replay => exact h

/-- The families of emitters stay what they are. -/
theorem Kinship.families_grow (c : Kinship) (deeds : List (Deed τ)) :
    c.families <+: (deeds.foldl step c).families := by
  induction deeds generalizing c with
  | nil => exact List.prefix_rfl
  | cons d deeds ih =>
    refine List.IsPrefix.trans ?_ (ih (c.step d))
    cases d with
    | create | fork => exact List.prefix_append ..
    | on | emit | replay => exact List.prefix_rfl

/-- The families after some deeds. -/
def kinship (deeds : List (Deed τ)) : Kinship := deeds.foldl Kinship.step ⟨0, []⟩

/-- The family of an emitter after some deeds. -/
def familyOf (deeds : List (Deed τ)) (x : Nat) : Option Nat := (kinship deeds).families[x]?

/-- The emitter that a deed is done with. -/
def Deed.actor : Deed τ → Option Nat
  | .create => none
  | .fork x | .on x _ _ | .emit x _ _ | .replay x _ => some x

/-- Whether every deed is done with an emitter that is there. -/
def areFeasible (c : Kinship) : List (Deed τ) → Bool
  | [] => true
  | d :: rest => d.actor.all (· < c.families.length) && areFeasible (c.step d) rest

/-- The tag of the one that subscribes to a category at an emitter of a family by a deed. -/
def Deed.subscriber (familyOf : Nat → Option Nat) (family : Option Nat) (k : Kind) :
    Deed τ → Option τ
  | .on x w l => if familyOf x = family ∧ Kind.ofWord? w = some k then some l.tag else none
  | _ => none

/-- The tags of those that subscribed to a category at an emitter of a family, in order. -/
def subscribed (deeds : List (Deed τ)) (family : Option Nat) (k : Kind) : List τ :=
  deeds.filterMap (Deed.subscriber (familyOf deeds) family k)

/-- What a deed delivers that an emitter records. -/
def Deed.recorded (s : Emitters τ) (x : Nat) : Deed τ → List (Kind × Entity)
  | .emit y words e =>
    if y = x then (s.audience x).reach [] ((Delivering.named words).map fun k => (k, e)) else []
  | _ => []

/-- What is emitted on an emitter by some deeds. -/
def emitted (s : Emitters τ) (x : Nat) : List (Deed τ) → List (Kind × Entity)
  | [] => []
  | d :: rest => d.recorded s x ++ emitted (s.perform d).emitters x rest

theorem after_append (s : Emitters τ) (deeds deeds' : List (Deed τ)) :
    s.after (deeds ++ deeds') = (s.after deeds).after deeds' := List.foldl_append

theorem emitted_append (s : Emitters τ) (x : Nat) (deeds deeds' : List (Deed τ)) :
    emitted s x (deeds ++ deeds') = emitted s x deeds ++ emitted (s.after deeds) x deeds' := by
  induction deeds generalizing s with
  | nil => rfl
  | cons d deeds ih =>
    rw [List.cons_append, emitted, emitted, ih, List.append_assoc]
    rfl

theorem areFeasible_append (c : Kinship) (deeds deeds' : List (Deed τ)) :
    areFeasible c (deeds ++ deeds') =
      (areFeasible c deeds && areFeasible (deeds.foldl Kinship.step c) deeds') := by
  induction deeds generalizing c with
  | nil => rfl
  | cons d deeds ih => rw [List.cons_append, areFeasible, areFeasible, ih, Bool.and_assoc]; rfl

/-- The table that an emitter refers to. -/
def tableOf (s : Emitters τ) (x : Nat) : Option Nat := (s.members[x]?).map Emitter.table

/-- The number of tables, and the table of each emitter. -/
def kin (s : Emitters τ) : Kinship := ⟨s.tables.length, s.members.map Emitter.table⟩

section Steps

variable {s : Emitters τ} {d : Deed τ} {x : Nat} {m : Emitter}

theorem member_eq (there : s.members[x]? = some m) : s.member x = .ok m := by rw [member, there]

theorem audience_eq (there : s.members[x]? = some m) : s.audience x = s.listeners m.table := by
  rw [audience, there]

theorem snapshot_eq (there : s.members[x]? = some m) : s.snapshot x = m.snapshot := by
  rw [snapshot, there]

/-- Every emitter refers to a table that is there. -/
theorem table_lt (sound : s.kin.IsSound) (there : s.members[x]? = some m) :
    m.table < s.tables.length := sound _ (List.mem_map_of_mem (List.mem_of_getElem? there))

theorem listeners_set {t : Nat} (there : t < s.tables.length) (b : Audience τ)
    (members : List Emitter) (u : Nat) :
    Emitters.listeners ⟨s.tables.set t b, members⟩ u = if t = u then b else s.listeners u := by
  rw [listeners, List.getElem?_set]
  by_cases h : t = u
  · subst h
    rw [if_pos rfl, if_pos there, if_pos rfl]
    rfl
  · rw [if_neg h, if_neg h]
    rfl

theorem snapshot_set (there : s.members[x]? = some m) (tables : List (Audience τ)) (made : Snapshot)
    (y : Nat) : Emitters.snapshot (τ := τ) ⟨tables, s.members.set x { m with snapshot := made }⟩ y =
      if y = x then made else s.snapshot y := by
  have inside := (List.getElem?_eq_some_iff.1 there).1
  rw [snapshot, List.getElem?_set]
  by_cases h : x = y
  · subst h
    rw [if_pos rfl, if_pos inside, if_pos rfl]
  · rw [if_neg h, if_neg (Ne.symm h)]
    rfl

/-- A delivery by an emitter: its course is that of a delivery to the listeners of its family, and
only its own snapshot may change. -/
theorem run_plays {mark : Snapshot → Kind × Entity → Snapshot} {xs : List (Kind × Entity)}
    {ending : Except Failure Unit} {action : Delivering τ Unit} (there : s.members[x]? = some m)
    (plays : Delivering.Plays mark xs ending action) :
    ∃ outcome reached heard b, Course (s.audience x) xs outcome reached heard b ∧
      s.run x action = ⟨outcome.bind fun _ => ending, ⟨s.tables.set m.table b,
        s.members.set x { m with snapshot := reached.foldl mark m.snapshot }⟩, heard⟩ := by
  obtain ⟨outcome, reached, heard, b, course, run⟩ := plays ⟨s.listeners m.table, m.snapshot, [], []⟩
  rw [audience_eq there]
  refine ⟨outcome, reached, heard, b, course, ?_⟩
  rw [Emitters.run, member_eq there]
  dsimp only
  rw [run]
  rfl

theorem kin_set {t : Nat} (b : Audience τ) (there : s.members[x]? = some m) (made : Snapshot) :
    kin (τ := τ) ⟨s.tables.set t b, s.members.set x { m with snapshot := made }⟩ = s.kin := by
  have same : (s.members.map Emitter.table).set x m.table = s.members.map Emitter.table := by
    obtain ⟨inside, rfl⟩ := List.getElem?_eq_some_iff.1 there
    rw [← List.getElem_map Emitter.table, List.set_getElem_self]
    simpa using inside
  rw [kin, kin, List.length_set, List.map_set, same]

/-- A deed that an emitter which is there can do. -/
theorem exists_member (feasible : d.actor.all (· < s.members.length) = true)
    (actor : d.actor = some x) : ∃ m, s.members[x]? = some m := by
  rw [actor] at feasible
  exact ⟨_, List.getElem?_eq_getElem (by simpa using feasible)⟩

theorem kin_perform (feasible : d.actor.all (· < s.members.length) = true) :
    (s.perform d).emitters.kin = s.kin.step d := by
  cases d with
  | create => simp [perform, add, kin, Kinship.step]
  | fork x =>
    obtain ⟨m, there⟩ := exists_member feasible rfl
    simp [perform, member_eq there, add, kin, Kinship.step, there]
  | on x w l =>
    obtain ⟨m, there⟩ := exists_member feasible rfl
    rw [perform, member_eq there]
    cases Kind.ofWord? w with
    | none => rfl
    | some k => simp [kin, Kinship.step]
  | emit x words e =>
    obtain ⟨m, there⟩ := exists_member feasible rfl
    obtain ⟨_, _, _, b, -, run⟩ := run_plays there (Delivering.plays_emitNamed words e)
    rw [perform, run]
    exact kin_set b there _
  | replay x snapshot =>
    obtain ⟨m, there⟩ := exists_member feasible rfl
    obtain ⟨_, _, _, b, -, run⟩ := run_plays there (Delivering.Plays.replay snapshot)
    rw [perform, run]
    exact kin_set b there _

/-- Only what is emitted on an emitter adds to its snapshot. -/
theorem snapshot_perform (feasible : d.actor.all (· < s.members.length) = true) (x : Nat) :
    (s.perform d).emitters.snapshot x = (s.snapshot x).recordEach (d.recorded s x) := by
  have added (tables : List (Audience τ)) (t : Nat) :
      Emitters.snapshot (τ := τ) ⟨tables, s.members ++ [⟨t, .empty⟩]⟩ x = s.snapshot x := by
    rw [snapshot, snapshot, List.getElem?_append]
    by_cases h : x < s.members.length
    · rw [if_pos h]
    · rw [if_neg h, List.getElem?_eq_none (Nat.not_lt.1 h)]
      cases x - s.members.length <;> rfl
  cases d with
  | create => exact added _ _
  | fork y =>
    obtain ⟨m, there⟩ := exists_member feasible rfl
    rw [perform, member_eq there]
    exact added _ _
  | on y w l =>
    obtain ⟨m, there⟩ := exists_member feasible rfl
    rw [perform, member_eq there]
    cases Kind.ofWord? w <;> rfl
  | emit y words e =>
    obtain ⟨m, there⟩ := exists_member feasible rfl
    obtain ⟨_, reached, _, b, course, run⟩ := run_plays there (Delivering.plays_emitNamed words e)
    rw [perform, run, snapshot_set there, Deed.recorded]
    by_cases h : x = y
    · subst h
      rw [if_pos rfl, if_pos rfl, ← course.reached_eq, snapshot_eq there]
      rfl
    · rw [if_neg h, if_neg (Ne.symm h)]
      rfl
  | replay y snapshot =>
    obtain ⟨m, there⟩ := exists_member feasible rfl
    obtain ⟨_, reached, _, b, -, run⟩ := run_plays there (Delivering.Plays.replay snapshot)
    rw [perform, run, snapshot_set there]
    have same : reached.foldl (fun s _ => s) m.snapshot = m.snapshot := by simp
    rw [same, ← snapshot_eq there]
    split
    · next h => rw [h]; rfl
    · rfl

/-- Only a subscription changes who listens. -/
theorem tags_perform (sound : s.kin.IsSound) (feasible : d.actor.all (· < s.members.length) = true)
    (t : Nat) (k : Kind) : ((s.perform d).emitters.listeners t).tags k =
      (s.listeners t).tags k ++ (d.subscriber s.tableOf (some t) k).toList := by
  have kept {x : Nat} {m : Emitter} (there : s.members[x]? = some m) {b : Audience τ}
      (same : ∀ k, b.tags k = (s.audience x).tags k) (members : List Emitter) :
      (Emitters.listeners ⟨s.tables.set m.table b, members⟩ t).tags k = (s.listeners t).tags k := by
    rw [listeners_set (table_lt sound there)]
    split
    · next h => rw [same, audience_eq there, h]
    · rfl
  cases d with
  | create =>
    refine Eq.trans ?_ (List.append_nil _).symm
    have same : (s.perform .create).emitters.listeners t = s.listeners t := by
      change ((s.tables ++ [[]])[t]?).getD [] = (s.tables[t]?).getD []
      rw [List.getElem?_append]
      by_cases h : t < s.tables.length
      · rw [if_pos h]
      · rw [if_neg h, List.getElem?_eq_none (Nat.not_lt.1 h)]
        cases t - s.tables.length <;> rfl
    rw [same]
  | fork y =>
    obtain ⟨m, there⟩ := exists_member feasible rfl
    rw [perform, member_eq there]
    exact (List.append_nil _).symm
  | on y w l =>
    obtain ⟨m, there⟩ := exists_member feasible rfl
    rw [perform, member_eq there, Deed.subscriber, tableOf, there]
    cases hw : Kind.ofWord? w with
    | none => simp [idle]
    | some category =>
      dsimp only
      rw [listeners_set (table_lt sound there)]
      by_cases h : m.table = t
      · subst h
        rw [if_pos rfl, Audience.tags, Audience.subscribe, Audience.of_put]
        by_cases hk : k = category
        · subst hk
          simp [Audience.tags]
        · simp [hk, Ne.symm hk, Audience.tags]
      · simp [h]
  | emit y words e =>
    obtain ⟨m, there⟩ := exists_member feasible rfl
    obtain ⟨_, reached, _, b, course, run⟩ := run_plays there (Delivering.plays_emitNamed words e)
    rw [perform, run]
    exact (kept there course.tags _).trans (List.append_nil _).symm
  | replay y snapshot =>
    obtain ⟨m, there⟩ := exists_member feasible rfl
    obtain ⟨_, reached, _, b, course, run⟩ := run_plays there (Delivering.Plays.replay snapshot)
    rw [perform, run]
    exact (kept there course.tags _).trans (List.append_nil _).symm

end Steps

section Histories

variable {deeds : List (Deed τ)} {d : Deed τ} {c : Kinship}

/-- Whoever subscribed did so at an emitter that was there. -/
theorem lt_of_feasible (feasible : areFeasible c deeds = true) {x : Nat} {w : String} {l : Listener τ}
    (done : Deed.on x w l ∈ deeds) : x < (deeds.foldl Kinship.step c).families.length := by
  induction deeds generalizing c with
  | nil => cases done
  | cons d deeds ih =>
    rw [areFeasible, Bool.and_eq_true] at feasible
    rcases List.mem_cons.1 done with rfl | done
    · have there : x < c.families.length := by simpa [Deed.actor] using feasible.1
      exact there.trans_le (c.families_grow _).length_le
    · exact ih feasible.2 done

theorem kinship_append (deeds : List (Deed τ)) (d : Deed τ) :
    kinship (deeds ++ [d]) = (kinship deeds).step d := List.foldl_append

/-- A new subscription comes after all others. -/
theorem subscribed_append (feasible : areFeasible ⟨0, []⟩ deeds = true) {s : Emitters τ}
    (kin : s.kin = kinship deeds) (d : Deed τ) (t : Nat) (k : Kind) :
    subscribed (deeds ++ [d]) (some t) k =
      subscribed deeds (some t) k ++ (d.subscriber s.tableOf (some t) k).toList := by
  have stays {x : Nat} {w : String} {l : Listener τ} (done : Deed.on x w l ∈ deeds) :
      familyOf (deeds ++ [d]) x = familyOf deeds x := by
    obtain ⟨more, longer⟩ := (kinship deeds).families_grow [d]
    have there : x < (kinship deeds).families.length := lt_of_feasible feasible done
    rw [familyOf, kinship_append, familyOf]
    change ((kinship deeds).step d).families[x]? = _
    rw [show ((kinship deeds).step d).families = _ from longer.symm,
      List.getElem?_append_left there]
  unfold subscribed
  rw [List.filterMap_append, List.filterMap_cons, List.filterMap_nil]
  refine congrArg₂ (· ++ ·) (List.filterMap_congr fun d' done => ?_) ?_
  · cases d' with
    | on x w l => rw [Deed.subscriber, stays done, Deed.subscriber]
    | create | fork | emit | replay => rfl
  · have same : d.subscriber (familyOf (deeds ++ [d])) (some t) k =
        d.subscriber s.tableOf (some t) k := by
      cases d with
      | on x w l =>
        have family : familyOf (deeds ++ [.on x w l]) x = s.tableOf x := by
          rw [familyOf, kinship_append]
          change (kinship deeds).families[x]? = _
          rw [← kin, Emitters.kin, List.getElem?_map, tableOf]
        rw [Deed.subscriber, family, Deed.subscriber]
      | create | fork | emit | replay => rfl
    rw [same]
    cases d.subscriber s.tableOf (some t) k <;> rfl

/-- What some deeds have made of emitters. -/
structure LedTo (deeds : List (Deed τ)) (s : Emitters τ) : Prop where
  kin : s.kin = kinship deeds
  sound : s.kin.IsSound
  tags : ∀ t k, (s.listeners t).tags k = subscribed deeds (some t) k
  snapshot : ∀ x, s.snapshot x = Snapshot.empty.recordEach (emitted empty x deeds)

theorem ledTo_after (feasible : areFeasible ⟨0, []⟩ deeds = true) :
    LedTo deeds (empty.after deeds) := by
  induction deeds using List.reverseRecOn with
  | nil => exact ⟨rfl, nofun, fun _ _ => rfl, fun _ => rfl⟩
  | append_singleton deeds d ih =>
    rw [areFeasible_append, Bool.and_eq_true] at feasible
    obtain ⟨before, last⟩ := feasible
    have led := ih before
    have able : d.actor.all (· < (empty.after deeds).members.length) = true := by
      have count : (kinship deeds).families.length = (empty.after deeds).members.length := by
        rw [← led.kin, kin, List.length_map]
      rw [← count]
      exact (Bool.and_eq_true_iff.1 last).1
    rw [after_append]
    change LedTo (deeds ++ [d]) ((empty.after deeds).perform d).emitters
    have kin := kin_perform able
    refine ⟨?_, ?_, fun t k => ?_, fun x => ?_⟩
    · rw [kin, led.kin, kinship_append]
    · rw [kin]
      exact led.sound.step d
    · rw [tags_perform led.sound able, led.tags, subscribed_append before led.kin]
    · rw [snapshot_perform able, led.snapshot, emitted_append, Snapshot.recordEach_append]
      rw [emitted, emitted, List.append_nil]

/-- The listeners of an emitter are those that subscribed at any emitter of its family. -/
theorem tags_after (feasible : areFeasible ⟨0, []⟩ deeds = true) (x : Nat) (k : Kind) :
    ((empty.after deeds).audience x).tags k = subscribed deeds (familyOf deeds x) k := by
  have led := ledTo_after feasible
  have family : familyOf deeds x = (empty.after deeds).tableOf x := by
    rw [familyOf, ← led.kin, kin, List.getElem?_map, tableOf]
  rw [family]
  cases there : (empty.after deeds).members[x]? with
  | some m => rw [audience_eq there, led.tags, tableOf, there, Option.map_some]
  | none =>
    rw [audience, there, tableOf, there]
    refine (List.filterMap_eq_nil_iff.2 fun d done => ?_).symm
    cases d with
    | on y w l =>
      have inside := lt_of_feasible feasible done
      have known : familyOf deeds y ≠ none := by
        rw [familyOf]
        exact fun absent => absurd inside (Nat.not_lt.2 (List.getElem?_eq_none_iff.1 absent))
      exact if_neg fun h => known h.1
    | create | fork | emit | replay => rfl

/-- The snapshot of an emitter holds what was emitted on it, by category. -/
theorem events_after (feasible : areFeasible ⟨0, []⟩ deeds = true) (x : Nat) :
    ((empty.after deeds).snapshot x).events = Snapshot.sorted (emitted empty x deeds) := by
  rw [(ledTo_after feasible).snapshot, Snapshot.events_recordEach]

/-- An emitter that is there after some deeds. -/
theorem exists_member_after (feasible : areFeasible ⟨0, []⟩ deeds = true) {x : Nat}
    (there : familyOf deeds x ≠ none) : ∃ m, (empty.after deeds).members[x]? = some m := by
  rw [familyOf, ← (ledTo_after feasible).kin, kin, List.getElem?_map] at there
  cases h : (empty.after deeds).members[x]? with
  | none =>
    rw [h] at there
    exact absurd rfl there
  | some m => exact ⟨m, rfl⟩

end Histories

/-- What has become of a delivery by an emitter: it took its course with the listeners of the
emitter, and some of what was reached was recorded by it, and nothing by any other emitter. -/
structure Result.IsDelivery (r : Result τ) (s : Emitters τ) (x : Nat) (xs : List (Kind × Entity))
    (ending : Except Failure Unit) (records : Bool) : Prop where
  course : ∃ outcome reached,
    Course (s.audience x) xs outcome reached r.heard (r.emitters.audience x) ∧
      r.outcome = (outcome.bind fun _ => ending) ∧
      ∀ k, (r.emitters.snapshot x).get k =
        (s.snapshot x).get k ++ if records then under k reached else []
  others : ∀ y, y ≠ x → r.emitters.snapshot y = s.snapshot y

theorem isDelivery_run {s : Emitters τ} {x : Nat} {m : Emitter} {action : Delivering τ Unit}
    {xs : List (Kind × Entity)} {ending : Except Failure Unit} {records : Bool}
    (sound : s.kin.IsSound) (there : s.members[x]? = some m)
    (plays : Delivering.Plays (fun s x => if records then s.record x.1 x.2 else s) xs ending action) :
    (s.run x action).IsDelivery s x xs ending records := by
  obtain ⟨outcome, reached, heard, b, course, run⟩ := run_plays there plays
  rw [run]
  have mine : Emitters.audience (τ := τ) ⟨s.tables.set m.table b, s.members.set x { m with
      snapshot := reached.foldl (fun s x => if records then s.record x.1 x.2 else s) m.snapshot }⟩ x = b := by
    have inside := (List.getElem?_eq_some_iff.1 there).1
    rw [audience, List.getElem?_set_self inside]
    dsimp only
    rw [listeners_set (table_lt sound there), if_pos rfl]
  refine ⟨⟨outcome, reached, by rw [mine]; exact course, rfl, fun k => ?_⟩, fun y hy => ?_⟩
  · rw [snapshot_set there, if_pos rfl, snapshot_eq there]
    cases records with
    | true => exact Snapshot.get_recordEach m.snapshot reached k
    | false => simp
  · rw [snapshot_set there, if_neg hy]

/-- The law of a family of emitters. After any deeds, an emitter has the listeners that subscribed at
any emitter of its family, and its snapshot holds what was emitted on it, by category. An entity that
it emits takes its course category by category and is recorded as far as it comes; a snapshot that it
delivers again takes its course category by category and is not recorded. -/
theorem emitters_of_a_family (deeds : List (Deed τ)) (feasible : areFeasible ⟨0, []⟩ deeds = true) :
    let s := empty.after deeds
    (∀ x k, (s.audience x).tags k = subscribed deeds (familyOf deeds x) k) ∧
    (∀ x, (s.snapshot x).events = Snapshot.sorted (emitted empty x deeds)) ∧
    (∀ x words e, familyOf deeds x ≠ none →
      (s.perform (.emit x words e)).IsDelivery s x ((Delivering.named words).map fun k => (k, e))
        (Delivering.ending words) true) ∧
    ∀ x snapshot, familyOf deeds x ≠ none →
      (s.perform (.replay x snapshot)).IsDelivery s x snapshot.deliveries (.ok ()) false := by
  intro s
  have sound := (ledTo_after feasible).sound
  refine ⟨tags_after feasible, events_after feasible, fun x words e there => ?_,
    fun x snapshot there => ?_⟩
  · obtain ⟨m, member⟩ := exists_member_after feasible there
    exact isDelivery_run sound member (Delivering.plays_emitNamed words e)
  · obtain ⟨m, member⟩ := exists_member_after feasible there
    exact isDelivery_run sound member (Delivering.Plays.replay snapshot)

/-- Two emitters of a family, with a listener that subscribed at each of them. -/
def twoMembers : List (Deed String) :=
  [.create, .on 0 "MODEL" ⟨"a", none⟩, .fork 0, .on 1 "MODEL" ⟨"b", some (1, "full")⟩,
    .emit 1 ["SCHEMA", "MODEL"] (.ref ⟨"A", .ref⟩)]

/-- Both listeners are seen by both emitters, and only the one that emitted has recorded anything. -/
theorem emitters_of_a_family_two :
    areFeasible ⟨0, []⟩ twoMembers = true ∧
    ((empty.after twoMembers).audience 0).tags .model = ["a", "b"] ∧
    ((empty.after twoMembers).audience 1).tags .model = ["a", "b"] ∧
    ((empty.after twoMembers).snapshot 0).events = [] ∧
    Dict.keys ((empty.after twoMembers).snapshot 1).events = [.schema, .model] := by
  have feasible : areFeasible ⟨0, []⟩ twoMembers = true := by decide +kernel
  obtain ⟨tags, events, -, -⟩ := emitters_of_a_family twoMembers feasible
  refine ⟨feasible, ?_, ?_, ?_, ?_⟩
  · rw [tags]
    decide +kernel
  · rw [tags]
    decide +kernel
  · rw [events]
    rfl
  · rw [events]
    decide +kernel

end Emitters

end ApiGraph
