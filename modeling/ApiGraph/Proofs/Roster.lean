import ApiGraph.Proofs.Resolve.Run
import ApiGraph.Roster
import Mathlib.Data.List.Basic

/-! The generators that a discovery starts, and what becomes of them. A discovery goes on past
generators that cannot be built or started and ends at one whose name is taken; what it started
until then stays in the roster. Cleaning up reaches every member of the roster, once. -/

namespace ApiGraph

namespace Generator

/-- Whether the generator can be found, built and started. -/
def starts (g : Generator) : Bool := (g.make.bind fun _ => g.perform .start).isOk

/-- Whether the generator can subscribe to all its categories. -/
def subscribes (g : Generator) : Bool := (g.subscribe []).1.isOk

theorem subscribeTo_outcome (g : Generator) (words : List String) (a b : Audience String) :
    (g.subscribeTo a words).1 = (g.subscribeTo b words).1 := by
  induction words generalizing a b with
  | nil => rfl
  | cons w rest ih =>
    unfold subscribeTo
    cases Kind.ofWord? w with
    | none => rfl
    | some category => exact ih _ _

/-- Whether a generator can subscribe does not depend on who did before. -/
theorem subscribe_outcome (g : Generator) (a b : Audience String) :
    (g.subscribe a).1 = (g.subscribe b).1 := by
  unfold subscribe
  cases g.perform .subscribe with
  | error f => rfl
  | ok _ => exact subscribeTo_outcome g _ a b

theorem isOk_subscribe (g : Generator) (a : Audience String) :
    (g.subscribe a).1.isOk = g.subscribes := by
  rw [subscribes, subscribe_outcome g a []]

end Generator

namespace Roster

open Resolving

/-- The generators that a discovery starts, if some names are taken before. -/
def begun (rules : RosterSettings) : List String → List (String × Generator) → Dict String Generator
  | _, [] => []
  | taken, (name, g) :: rest =>
    if !rules.allows name then begun rules taken rest
    else if taken.contains name then []
    else if g.starts then (name, g) :: begun rules (taken ++ [name]) rest
    else begun rules taken rest

/-- Whether a discovery comes to a generator whose name is taken. -/
def clashes (rules : RosterSettings) : List String → List (String × Generator) → Bool
  | _, [] => false
  | taken, (name, g) :: rest =>
    if !rules.allows name then clashes rules taken rest
    else taken.contains name ||
      clashes rules (if g.starts then taken ++ [name] else taken) rest

/-- The generators that take part. -/
def candidates (rules : RosterSettings) (installed : List (String × Generator)) :
    List (String × Generator) := installed.filter fun p => rules.allows p.1

/-- No generator that takes part has the name of one that was started before it. -/
def HasOwnNames (rules : RosterSettings) (installed : List (String × Generator)) : Prop :=
  (candidates rules installed).Pairwise fun p q => p.2.starts = true → p.1 ≠ q.1

/-- No generator keeps a discovery from its end, and every one that is started subscribes to what it
listens to. -/
structure IsReady (rules : RosterSettings) (installed : List (String × Generator)) : Prop where
  names : HasOwnNames rules installed
  subscribe : ∀ p ∈ candidates rules installed, p.2.starts = true → p.2.subscribes = true

/-- What is noted when generators do a duty one after the other. -/
def deeds (d : Duty) (members : Dict String Generator) : List (String × String) :=
  members.map fun m => (m.2.label, d.word)

variable {rules : RosterSettings} {taken : List String} {installed : List (String × Generator)}

section Names

theorem mem_begun {p : String × Generator} (h : p ∈ begun rules taken installed) :
    p ∈ candidates rules installed ∧ p.2.starts = true ∧ p.1 ∉ taken := by
  induction installed generalizing taken with
  | nil => cases h
  | cons q rest ih =>
    obtain ⟨name, g⟩ := q
    have later {taken' : List String} (h : p ∈ begun rules taken' rest) :
        p ∈ candidates rules ((name, g) :: rest) ∧ p.2.starts = true ∧ p.1 ∉ taken' := by
      obtain ⟨listed, starts, free⟩ := ih h
      refine ⟨?_, starts, free⟩
      rw [candidates, List.filter_cons]
      split
      · exact List.mem_cons_of_mem _ listed
      · exact listed
    unfold begun at h
    split at h
    · exact later h
    · next allowed =>
      split at h
      · cases h
      · next free =>
        split at h
        · next starts =>
          rcases List.mem_cons.1 h with rfl | h
          · refine ⟨?_, starts, by simpa using free⟩
            rw [candidates, List.filter_cons, if_pos (by simpa using allowed)]
            exact List.mem_cons_self ..
          · obtain ⟨listed, starts, free⟩ := later h
            exact ⟨listed, starts, fun ht => free (List.mem_append_left _ ht)⟩
        · exact later h

/-- Every generator that is started has a name of its own. -/
theorem nodup_begun (rules : RosterSettings) (taken : List String)
    (installed : List (String × Generator)) : (Dict.keys (begun rules taken installed)).Nodup := by
  induction installed generalizing taken with
  | nil => exact List.nodup_nil
  | cons q rest ih =>
    obtain ⟨name, g⟩ := q
    unfold begun
    split
    · exact ih taken
    · split
      · exact List.nodup_nil
      · split
        · refine List.nodup_cons.2 ⟨fun hm => ?_, ih _⟩
          obtain ⟨p, hp, rfl⟩ := List.mem_map.1 hm
          exact (mem_begun hp).2.2 (List.mem_append_right _ (List.mem_singleton_self _))
        · exact ih taken

theorem clashes_eq_false_iff :
    clashes rules taken installed = false ↔
      (∀ p ∈ candidates rules installed, p.1 ∉ taken) ∧ HasOwnNames rules installed := by
  induction installed generalizing taken with
  | nil => exact ⟨fun _ => ⟨nofun, .nil⟩, fun _ => rfl⟩
  | cons q rest ih =>
    obtain ⟨name, g⟩ := q
    unfold clashes HasOwnNames candidates
    rw [List.filter_cons]
    cases rules.allows name with
    | false => exact ih
    | true =>
      simp only [Bool.not_true, Bool.false_eq_true, ↓reduceIte, Bool.or_eq_false_iff,
        List.contains_eq_mem, decide_eq_false_iff_not, ih, List.forall_mem_cons, List.pairwise_cons]
      cases g.starts with
      | false => simp [candidates, HasOwnNames, and_assoc]
      | true =>
        simp only [↓reduceIte, forall_const, List.mem_append, List.mem_singleton, not_or]
        constructor
        · rintro ⟨free, others, own⟩
          exact ⟨⟨free, fun p hp => (others p hp).1⟩, fun p hp => Ne.symm (others p hp).2, own⟩
        · rintro ⟨⟨free, others⟩, different, own⟩
          exact ⟨free, fun p hp => ⟨others p hp, Ne.symm (different p hp)⟩, own⟩

/-- Where no name is taken twice, all candidates that can be started are started. -/
theorem begun_of_clashes_false (h : clashes rules taken installed = false) :
    begun rules taken installed = (candidates rules installed).filter fun p => p.2.starts := by
  induction installed generalizing taken with
  | nil => rfl
  | cons q rest ih =>
    obtain ⟨name, g⟩ := q
    unfold clashes at h
    unfold begun candidates
    rw [List.filter_cons]
    cases ha : rules.allows name with
    | false =>
      rw [ha] at h
      exact ih h
    | true =>
      rw [ha] at h
      obtain ⟨free, h⟩ := Bool.or_eq_false_iff.1 h
      rw [free]
      cases hs : g.starts with
      | false =>
        rw [hs] at h
        simpa [hs, candidates] using ih h
      | true =>
        rw [hs] at h
        simpa [hs, candidates] using ih h

/-- Generators are ready exactly if a discovery comes to its end and all that it starts subscribe. -/
theorem isReady_iff : IsReady rules installed ↔
    clashes rules [] installed = false ∧
      (begun rules [] installed).all (fun m => m.2.subscribes) = true := by
  have unclaimed : ∀ p ∈ candidates rules installed, p.1 ∉ ([] : List String) :=
    fun _ _ => List.not_mem_nil
  constructor
  · intro ready
    have clear := clashes_eq_false_iff.2 ⟨unclaimed, ready.names⟩
    refine ⟨clear, List.all_eq_true.2 fun p hp => ?_⟩
    obtain ⟨listed, starts, -⟩ := mem_begun hp
    exact ready.subscribe p listed starts
  · rintro ⟨clear, subscribe⟩
    refine ⟨(clashes_eq_false_iff.1 clear).2, fun p listed starts => ?_⟩
    rw [begun_of_clashes_false clear] at subscribe
    exact List.all_eq_true.1 subscribe p (List.mem_filter.2 ⟨listed, starts⟩)

instance : Decidable (IsReady rules installed) := decidable_of_iff _ isReady_iff.symm

end Names

section Runs

variable {r : Roster} {name : String} {g : Generator}

theorem run_requireFree (name : String) (r : Roster) :
    (requireFree name).run.run r =
      (if Dict.has r.members name then .error (.alreadyLoaded name) else .ok (), r) := by
  unfold requireFree
  rw [run_bind]
  change (if Dict.has r.members name then _ else _ : Rostering Unit).run.run r = _
  split <;> rfl

/-- A generator that starts joins the roster; of another one nothing is noted. -/
theorem run_enlist (g : Generator) (free : Dict.has r.members name = false) :
    (g.starts = true ∧ (enlist name g).run.run r = (.ok (), { r with
      members := r.members ++ [(name, g)], journal := r.journal ++ deeds .start [(name, g)] })) ∨
    (g.starts = false ∧ ∃ f, (enlist name g).run.run r = (.error f, r)) := by
  have made : (ExceptT.mk (pure g.make) : Rostering Unit).run.run r = (g.make, r) := rfl
  have performed : (ExceptT.mk (pure (g.perform .start)) : Rostering Unit).run.run r =
    (g.perform .start, r) := rfl
  have unclaimed : (requireFree name).run.run r = (.ok (), r) := by
    rw [run_requireFree, free]
    rfl
  unfold enlist engage
  rw [run_bind, made]
  cases hm : g.make with
  | error f => exact .inr ⟨by simp [Generator.starts, hm, Except.bind, Except.isOk, Except.toBool],
      f, rfl⟩
  | ok u =>
    dsimp only
    rw [run_bind, unclaimed]
    dsimp only
    rw [run_bind, performed]
    cases hp : g.perform .start with
    | error f => exact .inr ⟨by simp [Generator.starts, hm, hp, Except.bind, Except.isOk,
        Except.toBool], f, rfl⟩
    | ok u' =>
      refine .inl ⟨by simp [Generator.starts, hm, hp, Except.bind, Except.isOk, Except.toBool], ?_⟩
      rw [← Dict.put_of_not_has _ _ g free]
      rfl

/-- A discovery adds to the roster the generators that it starts, notes it of each of them, and ends
at a name that is taken. -/
theorem run_discover (rules : RosterSettings) (installed : List (String × Generator)) (r : Roster) :
    let x := (discover rules installed).run.run r
    let members := begun rules (Dict.keys r.members) installed
    x.1.isOk = !clashes rules (Dict.keys r.members) installed ∧
      x.2.members = r.members ++ members ∧ x.2.journal = r.journal ++ deeds .start members := by
  induction installed generalizing r with
  | nil => exact ⟨rfl, (List.append_nil _).symm, (List.append_nil _).symm⟩
  | cons q rest ih =>
    obtain ⟨name, g⟩ := q
    unfold discover begun clashes
    cases ha : rules.allows name with
    | false => exact ih r
    | true =>
      have known : Dict.has r.members name = (Dict.keys r.members).contains name := by
        rw [Bool.eq_iff_iff, ← Dict.mem_keys_iff_has, List.contains_iff_mem]
      simp only [Bool.not_true, Bool.false_eq_true, ↓reduceIte, run_bind, run_requireFree, known]
      cases hc : (Dict.keys r.members).contains name with
      | true => exact ⟨rfl, (List.append_nil _).symm, (List.append_nil _).symm⟩
      | false =>
        have attempted : (attempt (enlist name g)).run.run r =
            (.ok ((enlist name g).run.run r).1, ((enlist name g).run.run r).2) := rfl
        simp only [Bool.false_eq_true, ↓reduceIte, attempted, Bool.false_or]
        rcases run_enlist g (known.trans hc) with ⟨starts, joined⟩ | ⟨starts, f, refused⟩
        · obtain ⟨ended, members, journal⟩ := ih { r with
            members := r.members ++ [(name, g)], journal := r.journal ++ deeds .start [(name, g)] }
          have taken : Dict.keys (r.members ++ [(name, g)]) = Dict.keys r.members ++ [name] := by
            simp [Dict.keys]
          simp only [joined, starts, ↓reduceIte, run_bind]
          rw [taken] at ended members journal
          generalize (discover rules rest).run.run _ = x at ended members journal
          obtain ⟨f | names, r'⟩ := x
          · exact ⟨ended, members.trans (List.append_assoc ..), journal.trans (List.append_assoc ..)⟩
          · exact ⟨ended, members.trans (List.append_assoc ..), journal.trans (List.append_assoc ..)⟩
        · simp only [refused, starts, Bool.false_eq_true, ↓reduceIte, run_bind]
          exact ih { r with warnings := _ }

theorem isOk_subscribeAll (members : Dict String Generator) (audience : Audience String) :
    (subscribeAll audience members).1.isOk = members.all fun m => m.2.subscribes := by
  induction members generalizing audience with
  | nil => rfl
  | cons m rest ih =>
    obtain ⟨name, g⟩ := m
    have subscribed := g.isOk_subscribe audience
    unfold subscribeAll
    rw [List.all_cons]
    generalize g.subscribe audience = x at subscribed
    obtain ⟨f | u, audience'⟩ := x
    · rw [← subscribed]
      rfl
    · rw [← subscribed]
      exact ih audience'

/-- A generator is told to clean up even if it fails at that. -/
theorem run_dismiss (name : String) (g : Generator) (r : Roster) :
    ∃ warnings, (dismiss name g).run.run r =
      (.ok (), { r with journal := r.journal ++ deeds .cleanUp [(name, g)], warnings }) := by
  unfold dismiss
  rw [run_bind]
  cases g.perform .cleanUp <;> exact ⟨_, rfl⟩

/-- Every member is told to clean up, in order, and nobody is a member any more. -/
theorem run_disband (r : Roster) : ∃ warnings, disband.run.run r =
    (.ok (), ⟨[], r.journal ++ deeds .cleanUp r.members, warnings⟩) := by
  have all (members : Dict String Generator) (r : Roster) :
      ∃ warnings, (members.forM fun m => dismiss m.1 m.2).run.run r =
        (.ok (), { r with journal := r.journal ++ deeds .cleanUp members, warnings }) := by
    induction members generalizing r with
    | nil => exact ⟨r.warnings, by rw [deeds, List.map_nil, List.append_nil]; rfl⟩
    | cons m members ih =>
      obtain ⟨warnings, first⟩ := run_dismiss m.1 m.2 r
      obtain ⟨warnings', rest⟩ := ih
        { r with journal := r.journal ++ deeds .cleanUp [(m.1, m.2)], warnings }
      refine ⟨warnings', ?_⟩
      change (dismiss m.1 m.2 >>= fun _ => members.forM fun m => dismiss m.1 m.2).run.run r = _
      rw [run_bind, first]
      simpa only [deeds, List.append_assoc, List.map_cons, List.map_nil, List.singleton_append]
        using rest
  obtain ⟨warnings, done⟩ := all r.members r
  refine ⟨warnings, ?_⟩
  unfold disband
  rw [run_bind]
  change StateT.run (ExceptT.run
    ((r.members.forM fun m => dismiss m.1 m.2) >>= fun _ => _)) r = _
  rw [run_bind, done]
  rfl

end Runs

end Roster

end ApiGraph
