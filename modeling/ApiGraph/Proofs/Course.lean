import ApiGraph.Proofs.Stream

/-! The course of a delivery to any listeners. Listeners take entities one by one, each as many as
its limit allows; the delivery ends with the first entity that a listener does not take. Which
deliveries are reached, who hears of them and how much the listeners still take is a function of the
listeners at the start. -/

namespace ApiGraph

variable {τ : Type}

namespace Listener

/-- Whether the listener takes some number of entities. -/
def takes (l : Listener τ) (n : Nat) : Bool :=
  match l.limit with
  | none => true
  | some (m, _) => decide (n ≤ m)

/-- The listener once it has taken some number of entities. -/
def fed (l : Listener τ) (n : Nat) : Listener τ :=
  { l with limit := l.limit.map fun p => (p.1 - n, p.2) }

variable (l : Listener τ) {m n : Nat}

@[simp] theorem tag_fed (n : Nat) : (l.fed n).tag = l.tag := rfl

@[simp] theorem fed_zero : l.fed 0 = l := by
  obtain ⟨tag, _ | p⟩ := l <;> rfl

@[simp] theorem fed_fed (m n : Nat) : (l.fed m).fed n = l.fed (m + n) := by
  obtain ⟨tag, _ | p⟩ := l
  · rfl
  · simp [fed, Nat.sub_sub]

@[simp] theorem takes_zero : l.takes 0 = true := by
  obtain ⟨tag, _ | p⟩ := l
  · rfl
  · simp [takes]

theorem takes_mono (h : l.takes n = true) (hm : m ≤ n) : l.takes m = true := by
  obtain ⟨tag, _ | p⟩ := l
  · rfl
  · simp only [takes, decide_eq_true_eq] at h ⊢
    omega

theorem takes_fed (h : l.takes m = true) (n : Nat) : (l.fed m).takes n = l.takes (m + n) := by
  obtain ⟨tag, _ | p⟩ := l
  · rfl
  · simp only [takes, fed, Option.map_some, decide_eq_true_eq] at h ⊢
    exact decide_eq_decide.2 (by omega)

theorem limit_fed (h : l.takes m = true) (message : String) :
    (l.fed m).limit = some (n, message) ↔ l.limit = some (m + n, message) := by
  obtain ⟨tag, _ | p⟩ := l
  · simp [fed]
  · simp only [takes, fed, Option.map_some, Option.some.injEq, Prod.ext_iff,
      decide_eq_true_eq] at h ⊢
    exact and_congr_left fun _ => by omega

/-- A listener that takes some entities takes one more, or fails at the next one. -/
theorem takes_succ (h : l.takes n = true) :
    l.takes (n + 1) = true ∨ ∃ message, l.limit = some (n, message) := by
  obtain ⟨tag, _ | ⟨m, message⟩⟩ := l
  · exact .inl rfl
  · simp only [takes, decide_eq_true_eq] at h ⊢
    rcases Nat.lt_or_eq_of_le h with less | rfl
    · exact .inl less
    · exact .inr ⟨message, rfl⟩

theorem not_takes_succ {message : String} (h : l.limit = some (n, message)) :
    l.takes (n + 1) = false := by
  simp [takes, h]

end Listener

namespace Audience

variable {a b c : Audience τ} {xs ys done : List (Kind × Entity)} {k : Kind}

/-- Whether all listeners of a category take some number of entities. -/
def takes (a : Audience τ) (k : Kind) (n : Nat) : Bool := (a.of k).all (·.takes n)

theorem takes_mono {m n : Nat} (h : a.takes k n = true) (hm : m ≤ n) : a.takes k m = true :=
  List.all_eq_true.2 fun l hl => l.takes_mono (List.all_eq_true.1 h l hl) hm

/-- Whether all listeners take all of some deliveries. -/
def TakesAll (a : Audience τ) (xs : List (Kind × Entity)) : Prop :=
  ∀ k, a.takes k (under k xs).length = true

/-- The listeners of one audience are those of another one that have taken some deliveries. -/
def Fed (a : Audience τ) (xs : List (Kind × Entity)) (b : Audience τ) : Prop :=
  ∀ k, b.of k = (a.of k).map (·.fed (under k xs).length)

theorem TakesAll.left (h : a.TakesAll (xs ++ ys)) : a.TakesAll xs := fun k =>
  takes_mono (h k) (by rw [under_append, List.length_append]; exact Nat.le_add_right ..)

theorem takesAll_nil : a.TakesAll [] := fun _ => List.all_eq_true.2 fun l _ => l.takes_zero

theorem Fed.nil : a.Fed [] a := fun k => by simp [under]

theorem Fed.trans (h : a.Fed xs b) (h' : b.Fed ys c) : a.Fed (xs ++ ys) c := fun k => by
  rw [h', h, under_append, List.length_append, List.map_map]
  exact List.map_congr_left fun l _ => l.fed_fed ..

theorem Fed.tags (h : a.Fed xs b) (k : Kind) : b.tags k = a.tags k := by
  rw [Audience.tags, h, List.map_map]
  rfl

theorem Fed.takes (h : a.Fed xs b) (patient : a.TakesAll xs) (k : Kind) (n : Nat) :
    b.takes k n = a.takes k ((under k xs).length + n) := by
  rw [Audience.takes, h, List.all_map, Audience.takes, Bool.eq_iff_iff, List.all_eq_true,
    List.all_eq_true]
  refine forall₂_congr fun l hl => ?_
  rw [Function.comp_apply, l.takes_fed (List.all_eq_true.1 (patient k) l hl)]

theorem Fed.takesAll (h : a.Fed xs b) (patient : a.TakesAll xs) (h' : b.TakesAll ys) :
    a.TakesAll (xs ++ ys) := fun k => by
  rw [under_append, List.length_append, ← h.takes patient]
  exact h' k

/-- The deliveries that are reached before a listener fails, with the one that it fails at. -/
def reach (a : Audience τ) : List (Kind × Entity) → List (Kind × Entity) → List (Kind × Entity)
  | _, [] => []
  | done, x :: rest =>
    x :: if a.takes x.1 ((under x.1 done).length + 1) then reach a (done ++ [x]) rest else []

end Audience

/-- The course of some deliveries to an audience: the outcome, the deliveries that are reached, who
hears what, and the audience that is left. -/
inductive Course (a : Audience τ) (xs : List (Kind × Entity)) :
    Except Failure Unit → List (Kind × Entity) → List (τ × String) → Audience τ → Prop where
  /-- Every listener of a category gets each of its entities, in the order of the subscriptions. -/
  | whole {b : Audience τ} (patient : a.TakesAll xs) (fed : a.Fed xs b) :
    Course a xs (.ok ()) xs (a.hears xs) b
  /-- A listener fails at an entity: it has taken all before that, and only those who subscribed to the
  category before it get this one. -/
  | cut {b : Audience τ} (done rest : List (Kind × Entity)) {k : Kind} {e : Entity}
    {before after : List (Listener τ)} {l : Listener τ} {message : String}
    (split : xs = done ++ (k, e) :: rest) (patient : a.TakesAll done)
    (turn : a.of k = before ++ l :: after)
    (earlier : ∀ l' ∈ before, l'.takes ((under k done).length + 1) = true)
    (fails : l.limit = some ((under k done).length, message))
    (left : ∀ j, b.of j =
      if j = k then before.map (·.fed ((under k done).length + 1)) ++
        (l :: after).map (·.fed (under k done).length)
      else (a.of j).map (·.fed (under j done).length)) :
    Course a xs (.error (.planned message)) (done ++ [(k, e)])
      (a.hears done ++ before.map fun l' => (l'.tag, e.label)) b

namespace Course

open Audience

variable {a b c : Audience τ} {xs ys reached reached' : List (Kind × Entity)}
  {heard heard' : List (τ × String)} {outcome : Except Failure Unit} {f : Failure}

/-- What is delivered after some deliveries that all listeners have taken. -/
theorem after (fed : a.Fed ys b) (patient : a.TakesAll ys)
    (h : Course b xs outcome reached heard c) :
    Course a (ys ++ xs) outcome (ys ++ reached) (a.hears ys ++ heard) c := by
  have same (zs : List (Kind × Entity)) : a.hears ys ++ b.hears zs = a.hears (ys ++ zs) := by
    rw [hears_eq_of_tags fed.tags, hears_append]
  cases h with
  | whole patient' fed' =>
    rw [same]
    exact .whole (fed.takesAll patient patient') (fed.trans fed')
  | @cut _ done rest k e before after l message split patient' turn earlier fails left =>
    rw [fed k] at turn
    obtain ⟨before, later, there, rfl, hl⟩ := List.map_eq_append_iff.1 turn
    obtain ⟨l, after, rfl, rfl, rfl⟩ := List.map_eq_cons_iff.1 hl
    clear turn hl
    have takes (l' : Listener τ) (hl' : l' ∈ a.of k) : l'.takes (under k ys).length = true :=
      List.all_eq_true.1 (patient k) l' hl'
    have count (j : Kind) : (under j (ys ++ done)).length =
        (under j ys).length + (under j done).length := by rw [under_append, List.length_append]
    have told : (before.map (·.fed (under k ys).length)).map (fun l' => (l'.tag, e.label)) =
        before.map fun l' => (l'.tag, e.label) := by
      rw [List.map_map]
      rfl
    rw [told, ← List.append_assoc, ← List.append_assoc, same]
    refine .cut (ys ++ done) rest (by rw [split, List.append_assoc])
      (fed.takesAll patient patient') there (fun l' hl' => ?_) ?_ fun j => ?_
    · have taken := earlier _ (List.mem_map_of_mem hl')
      rw [l'.takes_fed (takes l' (there ▸ List.mem_append_left _ hl'))] at taken
      rwa [count]
    · rw [count]
      exact (l.limit_fed (takes l (there ▸ by simp)) message).1 fails
    · rw [left j, fed j, count k, count j]
      simp [Function.comp_def, Nat.add_assoc]

/-- What follows a listener's failure is not reached. -/
theorem stop (h : Course a xs (.error f) reached heard b) (ys : List (Kind × Entity)) :
    Course a (xs ++ ys) (.error f) reached heard b := by
  cases h with
  | @cut _ done rest k e before after l message split patient turn earlier fails left =>
    refine .cut done (rest ++ ys) ?_ patient turn earlier fails left
    rw [split, List.append_assoc, List.cons_append]

/-- Nobody joins or leaves the audience. -/
theorem tags (h : Course a xs outcome reached heard b) (k : Kind) : b.tags k = a.tags k := by
  cases h with
  | whole patient fed => exact fed.tags k
  | cut done rest split patient turn earlier fails left =>
    rw [Audience.tags, left k, Audience.tags]
    split
    · next hk =>
      subst hk
      simp [turn, Function.comp_def]
    · simp [Function.comp_def]

/-- What is reached depends on the audience and the deliveries only. -/
theorem reached_eq (h : Course a xs outcome reached heard b) : reached = a.reach [] xs := by
  have full (done rest more : List (Kind × Entity)) (patient : a.TakesAll (done ++ rest)) :
      a.reach done (rest ++ more) = rest ++ a.reach (done ++ rest) more := by
    induction rest generalizing done with
    | nil => rw [List.nil_append, List.nil_append, List.append_nil]
    | cons x rest ih =>
      have split : done ++ x :: rest = (done ++ [x]) ++ rest := by simp
      rw [split] at patient
      have taken := patient.left x.1
      rw [under_append, List.length_append] at taken
      rw [List.cons_append, reach, if_pos (by simpa [under] using taken), ih _ patient, ← split]
      rfl
  cases h with
  | whole patient fed =>
    have all := full [] xs [] patient
    rw [List.append_nil] at all
    rw [all]
    exact (List.append_nil xs).symm
  | @cut _ done rest k e before after l message split patient turn earlier fails left =>
    have refused : a.takes k ((under k done).length + 1) = false := by
      rw [Audience.takes, turn, List.all_append, List.all_cons, l.not_takes_succ fails]
      simp
    rw [split, full [] done _ patient, List.nil_append, reach, if_neg (by simp [refused])]

end Course

namespace Delivering

open Resolving Audience

variable {k : Kind} {e : Entity} {s : Stage τ}

theorem run_give (l : Listener τ) (takes : l.takes 1 = true) (s : Stage τ) :
    (give e l).run.run s = (.ok (l.fed 1), { s with heard := s.heard ++ [(l.tag, e.label)] }) := by
  obtain ⟨tag, _ | ⟨_ | n, message⟩⟩ := l
  · rfl
  · cases takes
  · rfl

theorem run_give_refused {l : Listener τ} {message : String} (fails : l.limit = some (0, message))
    (s : Stage τ) : (give e l).run.run s = (.error (.planned message), s) := by
  rw [give, fails]
  rfl

/-- Listeners that take an entity get it, and it goes on with the others. -/
theorem run_giveFrom (e : Entity) (done before rest : List (Listener τ)) (s : Stage τ)
    (there : s.audience.of k = done ++ (before ++ rest)) (takes : ∀ l ∈ before, l.takes 1 = true) :
    ∃ b : Audience τ, b.of k = done ++ (before.map (·.fed 1) ++ rest) ∧
      (∀ j, j ≠ k → b.of j = s.audience.of j) ∧
      (giveFrom k e done (before ++ rest)).run.run s =
        (giveFrom k e (done ++ before.map (·.fed 1)) rest).run.run { s with
          audience := b, heard := s.heard ++ before.map fun l => (l.tag, e.label) } := by
  induction before generalizing done s with
  | nil => exact ⟨s.audience, there, fun _ _ => rfl, by simp⟩
  | cons l before ih =>
    let next : Stage τ := { s with
      heard := s.heard ++ [(l.tag, e.label)]
      audience := Dict.put s.audience k (done ++ l.fed 1 :: (before ++ rest)) }
    have there' : next.audience.of k = (done ++ [l.fed 1]) ++ (before ++ rest) := by
      rw [Audience.of_put, if_pos rfl]
      simp
    obtain ⟨b, turn, others, run⟩ := ih (done ++ [l.fed 1]) next there'
      fun l' hl' => takes l' (List.mem_cons_of_mem _ hl')
    refine ⟨b, ?_, fun j hj => ?_, ?_⟩
    · rw [turn]
      simp
    · rw [others j hj, Audience.of_put, if_neg hj]
    · rw [List.cons_append, giveFrom, run_bind, run_give l (takes l (List.mem_cons_self ..))]
      dsimp only
      rw [run_bind]
      change (giveFrom k e (done ++ [l.fed 1]) (before ++ rest)).run.run next = _
      rw [run]
      simp [next]

/-- An entity is given to the listeners of its category one after the other, up to the first one that
does not take it. -/
theorem run_deliver_course (k : Kind) (e : Entity) (s : Stage τ) :
    ∃ outcome heard b, Course s.audience [(k, e)] outcome [(k, e)] heard b ∧
      (deliver k e).run.run s = (outcome, { s with audience := b, heard := s.heard ++ heard }) := by
  have one : (under k [(k, e)]).length = 1 := by simp [under]
  have other {j : Kind} (hj : j ≠ k) : (under j [(k, e)]).length = 0 := by simp [under, hj.symm]
  have opened : (deliver k e).run.run s = (giveFrom k e [] (s.audience.of k)).run.run s := rfl
  rw [opened]
  by_cases takes : ∀ l ∈ s.audience.of k, l.takes 1 = true
  · obtain ⟨b, turn, others, run⟩ :=
      run_giveFrom (k := k) e [] (s.audience.of k) [] s (by simp) takes
    have patient : s.audience.TakesAll [(k, e)] := by
      intro j
      by_cases hj : j = k
      · subst hj
        rw [one]
        exact List.all_eq_true.2 takes
      · rw [other hj]
        exact List.all_eq_true.2 fun l _ => l.takes_zero
    have fed : s.audience.Fed [(k, e)] b := by
      intro j
      by_cases hj : j = k
      · subst hj
        rw [one, turn]
        simp
      · rw [other hj, others j hj]
        simp
    have told : s.audience.hears [(k, e)] = (s.audience.of k).map fun l => (l.tag, e.label) := by
      simp [Audience.hears, Audience.tags, Function.comp_def]
    rw [List.append_nil, ← told] at run
    exact ⟨_, _, b, .whole patient fed, run⟩
  · obtain ⟨before, l, after, turn, earlier, refused⟩ :
        ∃ before l after, s.audience.of k = before ++ l :: after ∧
          (∀ l' ∈ before, l'.takes 1 = true) ∧ ¬ l.takes 1 = true := by
      cases found : (s.audience.of k).find? fun l => !l.takes 1 with
      | none => exact absurd (by simpa using List.find?_eq_none.1 found) takes
      | some l =>
        obtain ⟨refused, before, after, turn, earlier⟩ := List.find?_eq_some_iff_append.1 found
        exact ⟨before, l, after, turn, by simpa using earlier, by simpa using refused⟩
    obtain ⟨message, fails⟩ := (l.takes_succ l.takes_zero).resolve_left refused
    obtain ⟨b, now, others, run⟩ := run_giveFrom e [] before (l :: after) s turn earlier
    refine ⟨_, _, b, .cut [] [] rfl takesAll_nil turn earlier fails fun j => ?_, ?_⟩
    · split
      · next hj =>
        subst hj
        rw [now]
        simp [under]
      · next hj =>
        rw [others j hj]
        simp [under]
    · rw [turn, run, giveFrom, run_bind, run_give_refused fails]
      rfl

/-- How a delivery ends, what it leaves of the audience, who hears what, and how what it reaches is
marked in the record. -/
def Plays (mark : Snapshot → Kind × Entity → Snapshot) (xs : List (Kind × Entity))
    (ending : Except Failure Unit) (d : Delivering τ Unit) : Prop :=
  ∀ s, ∃ outcome reached heard b, Course s.audience xs outcome reached heard b ∧
    d.run.run s = (outcome.bind fun _ => ending, { s with
      audience := b, snapshot := reached.foldl mark s.snapshot, heard := s.heard ++ heard })

namespace Plays

variable {mark : Snapshot → Kind × Entity → Snapshot} {xs ys : List (Kind × Entity)}
  {ending : Except Failure Unit} {d d' : Delivering τ Unit}

theorem ended {ending : Except Failure Unit} (h : ∀ s, d.run.run s = (ending, s)) :
    Plays mark [] ending d := fun s =>
  ⟨.ok (), [], [], s.audience, .whole takesAll_nil .nil, by
    rw [h]
    simp [Except.bind]⟩

theorem bind (h : Plays mark xs (.ok ()) d) (h' : Plays mark ys ending d') :
    Plays mark (xs ++ ys) ending (d >>= fun _ => d') := by
  intro s
  obtain ⟨outcome, reached, heard, b, course, run⟩ := h s
  rw [run_bind, run]
  cases course with
  | whole patient fed =>
    obtain ⟨outcome', reached', heard', c, course', run'⟩ := h' { s with
      audience := b, snapshot := xs.foldl mark s.snapshot, heard := s.heard ++ s.audience.hears xs }
    refine ⟨outcome', _, _, c, course'.after fed patient, ?_⟩
    rw [List.foldl_append, ← List.append_assoc]
    exact run'
  | @cut _ done rest k e before after l message split patient turn earlier fails left =>
    exact ⟨_, _, _, b, (Course.cut done rest split patient turn earlier fails left).stop ys, rfl⟩

theorem forM {α : Type} {f : α → Delivering τ Unit} {g : α → List (Kind × Entity)} (as : List α)
    (one : ∀ a, Plays mark (g a) (.ok ()) (f a)) :
    Plays mark (as.flatMap g) (.ok ()) (as.forM f) := by
  induction as with
  | nil => exact ended fun _ => rfl
  | cons a as ih => exact (one a).bind ih

/-- An entity is given to the listeners of its category, and not marked. -/
theorem deliver (k : Kind) (e : Entity) :
    Plays (fun s _ => s) [(k, e)] (.ok ()) (Delivering.deliver (τ := τ) k e) := by
  intro s
  obtain ⟨outcome, heard, b, course, run⟩ := run_deliver_course k e s
  refine ⟨outcome, _, heard, b, course, run.trans ?_⟩
  cases outcome <;> rfl

/-- An entity is recorded before it is given to anyone. -/
theorem emitUnder (k : Kind) (e : Entity) :
    Plays (fun s x => s.record x.1 x.2) [(k, e)] (.ok ()) (Delivering.emitUnder (τ := τ) e k) := by
  intro s
  obtain ⟨outcome, heard, b, course, run⟩ :=
    run_deliver_course k e { s with snapshot := s.snapshot.record k e }
  refine ⟨outcome, _, heard, b, course, run.trans ?_⟩
  cases outcome <;> rfl

/-- Delivering a snapshot again records nothing. -/
theorem replay (snapshot : Snapshot) :
    Plays (fun s _ => s) snapshot.deliveries (.ok ()) (Delivering.replay (τ := τ) snapshot) := by
  have all : Plays (fun s _ => s) (snapshot.deliveries.flatMap fun x => [x]) (.ok ())
      (Delivering.replay (τ := τ) snapshot) := forM _ fun x => deliver x.1 x.2
  rwa [List.flatMap_singleton'] at all

end Plays

/-- The categories of some words, up to the first word that names none. -/
def named : List String → List Kind
  | [] => []
  | w :: rest =>
    match Kind.ofWord? w with
    | some k => k :: named rest
    | none => []

/-- How words for categories end. -/
def ending (words : List String) : Except Failure Unit :=
  if words.all fun w => (Kind.ofWord? w).isSome then .ok () else .error (.misuse .badValue)

/-- An entity is recorded and given to listeners category by category. A word that names none ends
that, if it comes so far. -/
theorem plays_emitNamed (words : List String) (e : Entity) :
    Plays (fun s x => s.record x.1 x.2) ((named words).map fun k => (k, e)) (ending words)
      (emitNamed (τ := τ) words e) := by
  induction words with
  | nil => exact .ended fun _ => rfl
  | cons w rest ih =>
    change Plays _ _ _ ((match Kind.ofWord? w with
      | some k => emitUnder e k
      | none => throw (.misuse .badValue)) >>= fun _ => emitNamed rest e)
    unfold named ending
    rw [List.all_cons]
    cases Kind.ofWord? w with
    | none => exact .ended fun _ => rfl
    | some k => exact (Plays.emitUnder k e).bind ih

end Delivering

end ApiGraph
