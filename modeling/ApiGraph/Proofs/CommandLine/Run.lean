import ApiGraph.CommandLine.Run
import ApiGraph.Proofs.Resolve.Run
import ApiGraph.Proofs.Roster

/-! Runs of the command line, step by step. What a step does to the output and to the store is said
once for each step; what it says about the results is left open. -/

namespace ApiGraph

/-- The exit code of a run that ends with a failure. -/
def Failure.code (f : Failure) : Nat := f.exitCode?.getD 1

namespace CommandLine

/-- The exit code of a run that comes to an outcome. -/
def codeOf {α : Type} : Except Failure α → Nat
  | .ok _ => 0
  | .error f => f.code

namespace Running

/-- What becomes of a run with a step. -/
def exec (step : Running α) (given : Setup × Terminal) (p : Progress) :
    Except Failure α × Progress := (ExceptT.run (step given)).run p

section Steps

variable (given : Setup × Terminal) (p : Progress)

theorem exec_bind (step : Running α) (next : α → Running β) :
    (step >>= next).exec given p =
      match step.exec given p with
      | (.ok a, q) => (next a).exec given q
      | (.error f, q) => (.error f, q) := by
  change StateT.run (ExceptT.run (step given >>= fun a => next a given)) p = _
  have done : step.exec given p = StateT.run (ExceptT.run (step given)) p := rfl
  rw [done, Resolving.run_bind]
  generalize StateT.run (ExceptT.run (step given)) p = x
  obtain ⟨_ | _, _⟩ := x <;> rfl

@[simp] theorem exec_get : (get : Running Progress).exec given p = (.ok p, p) := rfl

@[simp] theorem exec_setup : setup.exec given p = (.ok given.1, p) := rfl

@[simp] theorem exec_lift (outcome : Except Failure α) :
    (lift outcome).exec given p = (outcome, p) := rfl

@[simp] theorem exec_say (tone : Terminal.Tone) (message : String) :
    (say tone message).exec given p =
      (.ok (), { p with diagnostics := p.diagnostics ++ given.2.say tone message }) := rfl

@[simp] theorem exec_withRoster (step : Rostering α) :
    (withRoster step).exec given p =
      ((step.run.run p.roster).1, { p with roster := (step.run.run p.roster).2 }) := rfl

theorem exec_closing (after : Running Unit) (step : Running α) :
    (closing after step).exec given p =
      ((after.exec given (step.exec given p).2).1.bind fun _ => (step.exec given p).1,
        (after.exec given (step.exec given p).2).2) := rfl

theorem exec_load (source : String) :
    (load source).exec given p =
      ((Source.ofText source).load ⟨p.world.files, given.1.input, given.1.answer⟩, p) := rfl

theorem exec_provide (place : Convention → Environment → Except Failure Files.Place) :
    (provide place).exec given p =
      match p.world.files.provide (place given.1.convention given.1.environment) with
      | .ok (made, files) => (.ok made, { p with world := { p.world with files } })
      | .error f => (.error f, p) := by
  simp only [provide, exec_bind, exec_setup, exec_get, exec_lift]
  cases p.world.files.provide (place given.1.convention given.1.environment) <;> rfl

theorem exec_writeFile (place : Files.Place) (text : String) :
    (writeFile place text).exec given p =
      ((p.world.files.write place text).1.mapError fun o => .misuse o.misuse,
        { p with world := { p.world with files := (p.world.files.write place text).2 } }) := rfl

end Steps

/-- A step after which a view of the run is as it was before. -/
def Keeps (view : Progress → γ) (step : Running α) : Prop :=
  ∀ given p, view (step.exec given p).2 = view p

namespace Keeps

variable {view : Progress → γ} {step : Running α} {after : Running Unit}

theorem bind {next : α → Running β} (h : Keeps view step) (hn : ∀ a, Keeps view (next a)) :
    Keeps view (step >>= next) := by
  intro given p
  rw [exec_bind]
  have first := h given p
  generalize step.exec given p = x at first
  obtain ⟨_ | a, q⟩ := x
  · exact first
  · exact (hn a given q).trans first

theorem pure (a : α) : Keeps view (Pure.pure a : Running α) := fun _ _ => rfl

theorem setup : Keeps view Running.setup := fun _ _ => rfl

theorem get : Keeps view (MonadState.get : Running Progress) := fun _ _ => rfl

theorem lift (outcome : Except Failure α) : Keeps view (Running.lift outcome) := fun _ _ => rfl

theorem load (source : String) : Keeps view (Running.load source) := fun _ _ => rfl

theorem closing (h : Keeps view step) (ha : Keeps view after) :
    Keeps view (Running.closing after step) := fun given p =>
  (ha given _).trans (h given p)

theorem comp {δ : Type} (f : γ → δ) (h : Keeps view step) : Keeps (f ∘ view) step := fun given p =>
  congrArg f (h given p)

end Keeps

/-- A view of the run that shows neither its files nor what it says about its results. -/
def Overlooks (view : Progress → γ) : Prop :=
  ∀ p files diagnostics,
    view { p with world := { p.world with files }, diagnostics } = view p

namespace Overlooks

variable {view : Progress → γ}

theorem say (h : Overlooks view) (tone : Terminal.Tone) (message : String) :
    Keeps view (Running.say tone message) := fun _ p => h p p.world.files _

theorem provide (h : Overlooks view)
    (place : Convention → Environment → Except Failure Files.Place) :
    Keeps view (Running.provide place) := by
  intro given p
  rw [exec_provide]
  split
  · exact h p _ p.diagnostics
  · rfl

theorem writeFile (h : Overlooks view) (place : Files.Place) (text : String) :
    Keeps view (Running.writeFile place text) := fun _ p => h p _ p.diagnostics

theorem settings (h : Overlooks view) (noCache : Bool) : Keeps view (Running.settings noCache) :=
  (h.provide _).bind fun _ => Keeps.get.bind fun _ => Keeps.setup.bind fun _ => .lift _

theorem log (h : Overlooks view) (f : Failure) : Keeps view (Running.log f) :=
  (h.provide _).bind fun _ => Keeps.setup.bind fun _ => (h.writeFile _ _).bind fun _ => h.say _ _

end Overlooks

end Running

/-- What nobody sees of a run before its end: its output and its store. -/
def Progress.held (p : Progress) : String × Store := (p.output, p.world.store)

namespace Running

/-- A step that leaves the output and the store alone. -/
abbrev IsQuiet (step : Running α) : Prop := Keeps Progress.held step

section Quiet

theorem overlooks_held : Overlooks Progress.held := fun _ _ _ => rfl

theorem quiet_say (tone : Terminal.Tone) (message : String) : IsQuiet (say tone message) :=
  overlooks_held.say tone message

theorem quiet_withRoster (step : Rostering α) : IsQuiet (withRoster step) := fun _ _ => rfl

theorem quiet_settings (noCache : Bool) : IsQuiet (settings noCache) := overlooks_held.settings noCache

theorem quiet_adopt (c : Graph.Change String) : IsQuiet (adopt c) :=
  (quiet_withRoster _).bind fun _ => (Keeps.lift _).bind fun _ => .pure _

theorem quiet_disband : IsQuiet disband := quiet_withRoster _

theorem quiet_assemble (rules : RosterSettings) : IsQuiet (assemble rules) :=
  Keeps.setup.bind fun _ => (quiet_withRoster _).bind fun _ => (quiet_say _ _).bind fun _ =>
    Keeps.get.bind fun _ => (Keeps.lift _).bind fun _ => .pure _

theorem quiet_replay (g : Graph String) (path : String) : IsQuiet (replay g path) := by
  refine Keeps.get.bind fun _ => (Keeps.lift _).bind fun _ => Keeps.get.bind fun _ => ?_
  dsimp only
  split
  · exact (quiet_say _ _).bind fun _ => (quiet_adopt _).bind fun _ => quiet_say _ _
  · exact (quiet_adopt _).bind fun _ => quiet_say _ _

theorem quiet_members : IsQuiet members :=
  (quiet_settings _).bind fun _ => Keeps.setup.bind fun _ => (quiet_withRoster _).bind fun _ =>
    Keeps.get.bind fun _ => .pure _

theorem quiet_parse_again (source : String) (output : Option String) (noCache : Bool) :
    IsQuiet (parse source output true noCache) :=
  (quiet_settings _).bind fun _ => (quiet_assemble _).bind fun _ =>
    (quiet_replay _ _).closing quiet_disband

end Quiet

/-- Cleaning up does not fail, even if generators do. -/
theorem exec_disband (given : Setup × Terminal) (p : Progress) :
    ∃ roster, disband.exec given p = (.ok (), { p with roster }) := by
  obtain ⟨warnings, done⟩ := Roster.run_disband p.roster
  refine ⟨⟨[], p.roster.journal ++ Roster.deeds .cleanUp p.roster.members, warnings⟩, ?_⟩
  rw [disband, exec_withRoster, done]

theorem reported_eq (c : Command) (given : Setup × Terminal) (p : Progress) :
    (reported c).exec given p =
      match (command c).exec given p with
      | (.ok _, q) => (.ok 0, q)
      | (.error f, q) =>
        match f.exitCode? with
        | some code => (.ok code, ((say .error f.report).exec given q).2)
        | none => (.ok 1, ((log f).exec given q).2) := by
  have opened : (reported c).exec given p = StateT.run (ExceptT.run (reported c given)) p := rfl
  have done : (command c).exec given p = StateT.run (ExceptT.run (command c given)) p := rfl
  rw [opened, done, reported, ExceptT.run_mk, StateT.run_bind]
  generalize StateT.run (ExceptT.run (command c given)) p = x
  obtain ⟨f | u, q⟩ := x
  · simp only [bind, StateT.run]
    cases f.exitCode? <;> rfl
  · rfl

/-- A command is reported by its exit code; all that the report adds is what is said. -/
theorem exec_reported {view : Progress → γ} (h : Overlooks view) (c : Command)
    (given : Setup × Terminal) (p : Progress) :
    ∃ q, (reported c).exec given p =
        (.ok (codeOf ((command c).exec given p).1), q) ∧
      view q = view ((command c).exec given p).2 := by
  rw [reported_eq]
  generalize (command c).exec given p = x
  obtain ⟨f | u, q⟩ := x
  · dsimp only [codeOf]
    unfold Failure.code
    cases f.exitCode? with
    | some code => exact ⟨_, rfl, h.say _ _ given q⟩
    | none => exact ⟨_, rfl, h.log f given q⟩
  · exact ⟨q, rfl, rfl⟩

end Running

/-- What a run without any progress starts from. -/
def Progress.start (w : World) : Progress := ⟨w, .empty, "", ""⟩

/-- The command of a run, from start to end. -/
def carriedOut (s : Setup) (w : World) (flags : List Flag) (c : Command) :
    Except Failure Unit × Progress := (Running.command c).exec (s, terminalOf s flags) (.start w)

/-- The report of a run shows what became of its command. -/
theorem execute_eq (s : Setup) (w : World) (flags : List Flag) (c : Command) :
    (execute s w flags c).1.exitCode = codeOf (carriedOut s w flags c).1 ∧
      (execute s w flags c).1.output = (carriedOut s w flags c).2.output ∧
      (execute s w flags c).2.store = (carriedOut s w flags c).2.world.store := by
  obtain ⟨q, reported, held⟩ :=
    Running.exec_reported Running.overlooks_held c (s, terminalOf s flags) (.start w)
  have run : execute s w flags c =
      (fun x : Except Failure Nat × Progress => ((⟨x.1.toOption.getD 1, x.2.output, x.2.diagnostics,
        x.2.roster.journal⟩ : Report), x.2.world))
        ((Running.reported c).exec (s, terminalOf s flags) (.start w)) := rfl
  rw [run, reported]
  exact ⟨rfl, congrArg Prod.fst held, congrArg Prod.snd held⟩

end CommandLine

end ApiGraph
