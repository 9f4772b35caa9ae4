import ApiGraph.Proofs.CommandLine.Run

/-! What a run that resolves a document comes to. All that is seen of it, its exit code and its
output, is a function of what it is given, of the files and of the stored snapshots. -/

namespace ApiGraph.CommandLine

variable {α β γ : Type} {given : Setup × Terminal} {p : Progress}

/-- The files once the directory of the settings is there, and the settings. -/
def settled (s : Setup) (files : Files.Tree) (noCache : Bool) :
    Except Failure (Files.Tree × Settings) := do
  let (directory, files) ← files.provide (s.convention.settings s.environment)
  let settings ← Settings.load files directory s.environment ⟨none, noCache⟩
  return (files, settings)

/-- The listeners of the generators that take part. -/
def gathered (s : Setup) (rules : RosterSettings) : Except Failure (Audience String) := do
  let (found, roster) := (Roster.discover rules s.installed).run.run .empty
  let _ ← found
  let (subscribed, audience) := roster.subscribe []
  let _ ← subscribed
  return audience

/-- The graph of nothing, with an audience. -/
def attendedBy (audience : Audience String) : Graph String :=
  { (Graph.empty : Graph String) with audience }

/-- The files once the store is open. -/
def shelved (s : Setup) (rules : StoreSettings) (files : Files.Tree) : Except Failure Files.Tree := do
  let (place, files) ← files.provide (s.convention.store s.environment)
  if rules.enabled then
    let (_, files) ← files.provide (.ok (place.child "snapshots"))
    return files
  else return files

/-- The snapshot for a document, stored or new, with the store that results. -/
def resolved (g : Graph String) (document : Datum) (source : String) (rules : StoreSettings)
    (store : Store) : Except Failure (Json × Store) := do
  match ← store.find? rules document with
  | some stored => do
    let _ ← (g.loadJson stored true).outcome
    return (stored, store)
  | none => do
    let c := g.parseDatum document (some source)
    let _ ← c.outcome
    let snapshot := c.graph.snapshot.toJson
    return (snapshot, ← store.keep rules document snapshot)

/-- The text of a snapshot. -/
def textOf (snapshot : Json) : String := snapshot.render .readable ++ "\n"

/-- What is printed of a snapshot. -/
def delivered (files : Files.Tree) (snapshot : Json) : Option String → Except Failure String
  | none => .ok (textOf snapshot)
  | some path => do
    let _ ← (files.write (.ofText path) (textOf snapshot)).1.mapError fun o => Failure.misuse o.misuse
    return ""

/-- What a run has before it delivers anything: the files, the snapshot, and the store. -/
def prepared (s : Setup) (w : World) (source : String) (noCache : Bool) :
    Except Failure (Files.Tree × Json × Store) := do
  let (files, settings) ← settled s w.files noCache
  let audience ← gathered s settings.roster
  let document ← (Source.ofText source).load ⟨files, s.input, s.answer⟩
  let files ← shelved s settings.store files
  let (snapshot, store) ← resolved (attendedBy audience) document source settings.store w.store
  return (files, snapshot, store)

/-- What a run that resolves a document prints, or the failure that it ends with. -/
def parsed (s : Setup) (w : World) (source : String) (output : Option String) (noCache : Bool) :
    Except Failure String := do
  let (files, snapshot, _) ← prepared s w source noCache
  delivered files snapshot output

/-- Nothing was printed, and the store holds no more and no less than some snapshots. -/
structure Progress.Idle (entries : Dict String Json) (p : Progress) : Prop where
  output : p.output = ""
  entries : p.world.store.entries = entries

variable {entries : Dict String Json}

/-- A step ends as a computation does: it fails with the same failure and has done nothing, or it
succeeds with what is related to the result. -/
def Ends (entries : Dict String Json) (x : Except Failure β) (R : β → α → Progress → Prop)
    (result : Except Failure α × Progress) : Prop :=
  match x with
  | .error f => result.1 = .error f ∧ result.2.Idle entries
  | .ok b => ∃ a, result.1 = .ok a ∧ R b a result.2

namespace Ends

open Running

variable {R : β → α → Progress → Prop} {step : Running α} {x : Except Failure β}

theorem bind {δ : Type} {y : β → Except Failure δ} {S : δ → γ → Progress → Prop}
    {next : α → Running γ} (h : Ends entries x R (step.exec given p))
    (hn : ∀ b a q, R b a q → Ends entries (y b) S ((next a).exec given q)) :
    Ends entries (x >>= y) S ((step >>= next).exec given p) := by
  rw [exec_bind]
  generalize step.exec given p = result at h
  obtain ⟨outcome, q⟩ := result
  cases x with
  | error f =>
    obtain ⟨failed, idle⟩ := h
    dsimp only at failed
    subst failed
    exact ⟨rfl, idle⟩
  | ok b =>
    obtain ⟨a, succeeded, related⟩ := h
    dsimp only at succeeded
    subst succeeded
    exact hn b a q related

/-- A step that changes nothing ends with its outcome. -/
theorem still {step : Running α} {outcome : Except Failure α} (hp : p.Idle entries)
    (h : step.exec given p = (outcome, p)) :
    Ends entries outcome (fun b a q => b = a ∧ p = q) (step.exec given p) := by
  rw [h]
  cases outcome with
  | error f => exact ⟨rfl, hp⟩
  | ok a => exact ⟨a, rfl, rfl, rfl⟩

/-- Cleaning up does not fail and changes nothing that is seen. -/
theorem closing (h : Ends entries x R (step.exec given p))
    (stable : ∀ b a q roster, R b a q → R b a { q with roster }) :
    Ends entries x R ((Running.closing disband step).exec given p) := by
  obtain ⟨roster, disbanded⟩ := exec_disband given (step.exec given p).2
  rw [exec_closing, disbanded]
  cases x with
  | error f => exact ⟨h.1, h.2.output, h.2.entries⟩
  | ok b =>
    obtain ⟨a, succeeded, related⟩ := h
    exact ⟨a, succeeded, stable b a _ roster related⟩

end Ends

theorem keep_opened (store : Store) (rules : StoreSettings) (document : Datum) (snapshot : Json) :
    (store.opened rules).keep rules document snapshot =
      (store.keep rules document snapshot).map fun kept => kept.opened rules := by
  unfold Store.keep
  cases rules.enabled with
  | false => rfl
  | true =>
    cases Store.key document with
    | error f => rfl
    | ok k =>
      cases (Double.ofInt rules.seconds).isFinite with
      | false => rfl
      | true =>
        by_cases h : 0 < rules.seconds
        · simp [h, Store.opened, Except.map, pure, Except.pure, bind, Except.bind]
        · simp [h, Store.opened, Except.map, pure, Except.pure, bind, Except.bind]

namespace Running

theorem ends_provide (given : Setup × Terminal) (hp : p.Idle entries)
    (place : Convention → Environment → Except Failure Files.Place) :
    Ends entries (p.world.files.provide (place given.1.convention given.1.environment))
      (fun x made q => made = x.1 ∧ q = { p with world := { p.world with files := x.2 } })
      ((provide place).exec given p) := by
  rw [exec_provide]
  cases p.world.files.provide (place given.1.convention given.1.environment) with
  | error f => exact ⟨rfl, hp⟩
  | ok x => exact ⟨x.1, rfl, rfl, rfl⟩

theorem ends_settings (given : Setup × Terminal) (hp : p.Idle entries) (noCache : Bool) :
    Ends entries (settled given.1 p.world.files noCache)
      (fun x settings q => settings = x.2 ∧ q = { p with world := { p.world with files := x.1 } })
      ((settings noCache).exec given p) := by
  refine (ends_provide given hp Convention.settings).bind fun x made q hx => ?_
  obtain ⟨rfl, rfl⟩ := hx
  rw [exec_bind, exec_get]
  dsimp only
  rw [exec_bind, exec_setup]
  dsimp only
  rw [exec_lift]
  cases Settings.load x.2 x.1 given.1.environment ⟨none, noCache⟩ with
  | error f => exact ⟨rfl, hp.output, hp.entries⟩
  | ok settings => exact ⟨settings, rfl, rfl, rfl⟩

theorem ends_assemble (given : Setup × Terminal) (hp : p.Idle entries) (hr : p.roster = .empty)
    (rules : RosterSettings) :
    Ends entries (gathered given.1 rules)
      (fun audience g q => g = attendedBy audience ∧ q.world = p.world ∧ q.Idle entries)
      ((assemble rules).exec given p) := by
  unfold gathered assemble
  rw [exec_bind, exec_setup]
  dsimp only
  rw [exec_bind, exec_withRoster, hr]
  generalize (Roster.discover rules given.1.installed).run.run .empty = x
  obtain ⟨f | names, roster⟩ := x
  · exact ⟨rfl, hp.output, hp.entries⟩
  · dsimp only
    rw [exec_bind, exec_say]
    dsimp only
    rw [exec_bind, exec_get]
    dsimp only
    generalize roster.subscribe [] = y
    obtain ⟨f | u, audience⟩ := y
    · exact ⟨rfl, hp.output, hp.entries⟩
    · dsimp only
      rw [exec_bind, exec_lift]
      exact ⟨attendedBy audience, rfl, rfl, rfl, hp.output, hp.entries⟩

theorem ends_openStore (given : Setup × Terminal) (hp : p.Idle entries) (rules : StoreSettings) :
    Ends entries (shelved given.1 rules p.world.files)
      (fun files _ q => q.world = ⟨files, p.world.store.opened rules⟩ ∧ q.Idle entries)
      ((openStore rules).exec given p) := by
  refine (ends_provide given hp Convention.store).bind fun x made q hx => ?_
  obtain ⟨rfl, rfl⟩ := hx
  cases he : rules.enabled with
  | false => exact ⟨(), rfl, rfl, hp.output, hp.entries⟩
  | true =>
    refine (ends_provide given (p := { p with world := { p.world with files := x.2 } })
      ⟨hp.output, hp.entries⟩ fun _ _ => .ok (x.1.child "snapshots")).bind fun y made q hy => ?_
    obtain ⟨rfl, rfl⟩ := hy
    exact ⟨(), rfl, rfl, hp.output, hp.entries⟩

theorem ends_adopt (given : Setup × Terminal) (hp : p.Idle entries) (c : Graph.Change String) :
    Ends entries c.outcome (fun _ g q => g = c.graph ∧ q.world = p.world ∧ q.Idle entries)
      ((adopt c).exec given p) := by
  rw [adopt, exec_bind, exec_withRoster]
  change Ends entries c.outcome _
    ((lift c.outcome >>= fun _ => pure c.graph).exec given { p with roster := _ })
  rw [exec_bind, exec_lift]
  cases c.outcome with
  | error f => exact ⟨rfl, hp.output, hp.entries⟩
  | ok u => exact ⟨c.graph, rfl, rfl, rfl, hp.output, hp.entries⟩

/-- A document is resolved or found in the store, which holds the snapshot afterwards as far as it
may. -/
theorem ends_resolve (given : Setup × Terminal) (hp : p.Idle entries) (g : Graph String) (source : String)
    (rules : StoreSettings) :
    Ends entries
      (do
        let document ← (Source.ofText source).load ⟨p.world.files, given.1.input, given.1.answer⟩
        let files ← shelved given.1 rules p.world.files
        let (snapshot, store) ← resolved g document source rules p.world.store
        return (files, snapshot, store))
      (fun x y q => y.2 = x.2.1 ∧ q.world.files = x.1 ∧ q.Idle x.2.2.entries)
      ((resolve g source rules).exec given p) := by
  rw [resolve]
  refine (Ends.still hp (exec_load given p source)).bind fun document d q hd => ?_
  obtain ⟨rfl, rfl⟩ := hd
  refine (ends_openStore given hp rules).bind fun files _ q hq => ?_
  obtain ⟨world, idle⟩ := hq
  rw [exec_bind, exec_get]
  dsimp only
  rw [resolved, bind_assoc]
  have found : q.world.store.find? rules document = p.world.store.find? rules document := by
    rw [world]
    rfl
  rw [found]
  refine (Ends.still idle (exec_lift given q _)).bind fun found? _ _ hf => ?_
  obtain ⟨rfl, rfl⟩ := hf
  cases found? with
  | some stored =>
    dsimp only
    rw [exec_bind, exec_say]
    dsimp only
    rw [bind_assoc]
    generalize q.diagnostics ++ _ = told
    have idle₁ : Progress.Idle entries { q with diagnostics := told } := ⟨idle.output, idle.entries⟩
    refine (ends_adopt given idle₁ _).bind fun _ g' q'' hg => ?_
    obtain ⟨rfl, same, idle'⟩ := hg
    have files : q''.world.files = files :=
      (congrArg World.files same).trans (congrArg World.files world)
    exact ⟨_, rfl, rfl, files, idle'.output, idle'.entries.trans hp.entries.symm⟩
  | none =>
    dsimp only
    rw [bind_assoc]
    refine (ends_adopt given idle _).bind fun _ g' q'' hg => ?_
    obtain ⟨rfl, same, idle'⟩ := hg
    rw [exec_bind, exec_get]
    dsimp only
    rw [bind_assoc, same, world, keep_opened]
    cases p.world.store.keep rules document _ with
    | error f => exact ⟨rfl, idle'⟩
    | ok kept => exact ⟨_, rfl, rfl, congrArg World.files (same.trans world), idle'.output, rfl⟩

/-- A snapshot is printed, or written to a file. -/
theorem exec_deliver (given : Setup × Terminal) (p : Progress) (g : Graph String) (snapshot : Json)
    (output : Option String) :
    let x := delivered p.world.files snapshot output
    ((deliver g snapshot output).exec given p).1 = x.map (fun _ => ()) ∧
      ((deliver g snapshot output).exec given p).2.held =
        (p.output ++ x.toOption.getD "", p.world.store) := by
  cases output with
  | none => exact ⟨rfl, rfl⟩
  | some path =>
    dsimp only [deliver, delivered]
    rw [exec_bind, exec_writeFile]
    unfold textOf
    generalize p.world.files.write (.ofText path) _ = x
    obtain ⟨o | u, files⟩ := x
    · exact ⟨rfl, Prod.ext (String.append_empty).symm rfl⟩
    · exact ⟨rfl, Prod.ext (String.append_empty).symm rfl⟩

/-- All the work is done before anything is delivered. -/
theorem ends_prepared (s : Setup) (t : Terminal) (w : World) (source : String) (noCache : Bool) :
    Ends w.store.entries (prepared s w source noCache)
      (fun x y q => y.2 = x.2.1 ∧ q.world.files = x.1 ∧ q.Idle x.2.2.entries)
      ((do
        let settings ← settings noCache
        let g ← assemble settings.roster
        closing disband (resolve g source settings.store)).exec (s, t) (.start w)) := by
  have start : (Progress.start w).Idle w.store.entries := ⟨rfl, rfl⟩
  rw [prepared]
  refine (ends_settings (s, t) start noCache).bind fun x settings q hx => ?_
  obtain ⟨rfl, rfl⟩ := hx
  have begun : Progress.Idle w.store.entries
      { Progress.start w with world := { w with files := x.1 } } := ⟨rfl, rfl⟩
  refine (ends_assemble (s, t) begun rfl _).bind fun audience g q hg => ?_
  obtain ⟨rfl, world, idle⟩ := hg
  have last := (ends_resolve (s, t) idle (attendedBy audience) source x.2.store).closing
    fun _ _ _ _ related => ⟨related.1, related.2.1, related.2.2.output, related.2.2.entries⟩
  rw [world] at last
  exact last

end Running

/-- What is seen of a run that resolves a document, and what it leaves in the store. -/
theorem execute_parse (s : Setup) (w : World) (flags : List Flag) (source : String)
    (output : Option String) (noCache : Bool) :
    let r := execute s w flags (.parse source output false noCache)
    let x := parsed s w source output noCache
    r.1.exitCode = codeOf x ∧ r.1.output = x.toOption.getD "" ∧
      r.2.store.entries = (match prepared s w source noCache with
        | .ok (_, _, store) => store.entries
        | .error _ => w.store.entries) := by
  intro r x
  obtain ⟨code, shown, kept⟩ := execute_eq s w flags (.parse source output false noCache)
  have worked := Running.ends_prepared s (terminalOf s flags) w source noCache
  have split : carriedOut s w flags (.parse source output false noCache) = ((do
      let settings ← Running.settings noCache
      let g ← Running.assemble settings.roster
      Running.closing Running.disband (Running.resolve g source settings.store)) >>= fun y =>
        Running.deliver y.1 y.2 output).exec (s, terminalOf s flags) (.start w) := by
    simp only [bind_assoc]
    rfl
  rw [split, Running.exec_bind] at code shown kept
  generalize ((do
      let settings ← Running.settings noCache
      let g ← Running.assemble settings.roster
      Running.closing Running.disband (Running.resolve g source settings.store) :
        Running (Graph String × Json))).exec (s, terminalOf s flags) (.start w) = result
    at worked code shown kept
  obtain ⟨outcome, q⟩ := result
  have hx : x = parsed s w source output noCache := rfl
  rw [parsed] at hx
  cases hp : prepared s w source noCache with
  | error f =>
    rw [hp] at worked hx
    obtain ⟨failed, idle⟩ := worked
    dsimp only at failed
    subst failed
    rw [hx]
    exact ⟨code, shown.trans idle.output, (congrArg Store.entries kept).trans idle.entries⟩
  | ok y =>
    obtain ⟨files, snapshot, store⟩ := y
    rw [hp] at worked hx
    obtain ⟨⟨g, json⟩, succeeded, rfl, rfl, idle⟩ := worked
    dsimp only at succeeded
    subst succeeded
    obtain ⟨ended, held⟩ := Running.exec_deliver (s, terminalOf s flags) q g json output
    rw [idle.output] at held
    dsimp only at code shown kept
    rw [ended] at code
    have hx : x = delivered q.world.files json output := hx
    rw [hx]
    refine ⟨code.trans ?_, (shown.trans (congrArg Prod.fst held)).trans String.empty_append,
      (congrArg Store.entries (kept.trans (congrArg Prod.snd held))).trans idle.entries⟩
    cases delivered q.world.files json output <;> rfl

end ApiGraph.CommandLine
