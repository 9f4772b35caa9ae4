import ApiGraph.Proofs.CommandLine.History
import ApiGraph.Proofs.CommandLine.Lifecycle
import ApiGraph.Proofs.Files

/-! What a run that fails leaves behind. It has printed nothing, and the files that were there are as
they were, but for the log of its failure. What it has made of its document is stored at most if all
of its work is done. -/

namespace ApiGraph.CommandLine

open Files

namespace Running

variable {α β : Type} {given : Setup × Terminal} {p : Progress}

/-- A step that leaves all files as they are. -/
def Spares (step : Running α) : Prop :=
  ∀ given (p : Progress), p.world.files.Within (step.exec given p).2.world.files

namespace Spares

variable {step : Running α}

theorem of_keeps (h : Keeps (fun p => p.world.files) step) : Spares step := fun given p => by
  rw [show (step.exec given p).2.world.files = p.world.files from h given p]
  exact .refl _

theorem bind {next : α → Running β} (h : Spares step) (hn : ∀ a, Spares (next a)) :
    Spares (step >>= next) := by
  intro given p
  rw [exec_bind]
  have first := h given p
  generalize step.exec given p = x at first
  obtain ⟨f | a, q⟩ := x
  · exact first
  · exact first.trans (hn a given q)

/-- What is done after such a step leaves the files as they are if it fails. -/
theorem bind_within {next : α → Running β} (h : Spares step)
    (hn : ∀ a q f, ((next a).exec given q).1 = .error f →
      q.world.files.Within ((next a).exec given q).2.world.files) {f : Failure}
    (failed : ((step >>= next).exec given p).1 = .error f) :
    p.world.files.Within ((step >>= next).exec given p).2.world.files := by
  rw [exec_bind] at failed ⊢
  have first := h given p
  generalize step.exec given p = x at first failed
  obtain ⟨f' | a, q⟩ := x
  · exact first
  · exact first.trans (hn a q f failed)

theorem closing {after : Running Unit} (h : Spares step) (ha : Spares after) :
    Spares (Running.closing after step) := fun given p => (h given p).trans (ha given _)

theorem lift (outcome : Except Failure α) : Spares (Running.lift outcome) := of_keeps (Keeps.lift _)

theorem say (tone : Terminal.Tone) (message : String) : Spares (Running.say tone message) :=
  of_keeps fun _ _ => rfl

theorem withRoster (step : Rostering α) : Spares (Running.withRoster step) := of_keeps fun _ _ => rfl

theorem provide (place : Convention → Environment → Except Failure Place) :
    Spares (Running.provide place) := by
  intro given p
  rw [exec_provide]
  cases hp : p.world.files.provide (place given.1.convention given.1.environment) with
  | error f => exact .refl _
  | ok x => exact (Tree.provide_within hp).2

end Spares

theorem spares_settings (noCache : Bool) : Spares (settings noCache) :=
  (Spares.provide _).bind fun _ => (Spares.of_keeps .get).bind fun _ =>
    (Spares.of_keeps .setup).bind fun _ => .lift _

theorem spares_adopt (c : Graph.Change String) : Spares (adopt c) :=
  (Spares.withRoster _).bind fun _ => (Spares.lift _).bind fun _ => .of_keeps (.pure _)

theorem spares_assemble (rules : RosterSettings) : Spares (assemble rules) :=
  (Spares.of_keeps .setup).bind fun _ => (Spares.withRoster _).bind fun _ =>
    (Spares.say _ _).bind fun _ => (Spares.of_keeps .get).bind fun _ => (Spares.lift _).bind fun _ =>
      .of_keeps (.pure _)

theorem spares_openStore (rules : StoreSettings) : Spares (openStore rules) := by
  refine (Spares.provide _).bind fun place => ?_
  dsimp only
  split
  · exact (Spares.provide _).bind fun _ => .of_keeps fun _ _ => rfl
  · exact (Spares.say _ _).bind fun _ => .of_keeps fun _ _ => rfl

theorem spares_resolve (g : Graph String) (source : String) (rules : StoreSettings) :
    Spares (resolve g source rules) := by
  refine (Spares.of_keeps (.load source)).bind fun document => (spares_openStore rules).bind fun _ =>
    (Spares.of_keeps .get).bind fun _ => (Spares.lift _).bind fun found? => ?_
  cases found? with
  | some stored =>
    exact (Spares.say _ _).bind fun _ => (spares_adopt _).bind fun _ => .of_keeps (.pure _)
  | none =>
    exact (spares_adopt _).bind fun _ => (Spares.of_keeps .get).bind fun _ =>
      (Spares.lift _).bind fun _ => .of_keeps fun _ _ => rfl

theorem spares_replay (g : Graph String) (path : String) : Spares (replay g path) := by
  refine (Spares.of_keeps .get).bind fun _ => (Spares.lift _).bind fun _ =>
    (Spares.of_keeps .get).bind fun _ => ?_
  dsimp only
  split
  · exact (Spares.say _ _).bind fun _ => (spares_adopt _).bind fun _ => .say _ _
  · exact (spares_adopt _).bind fun _ => .say _ _

/-- A snapshot that cannot be delivered replaces no file. -/
theorem deliver_within (g : Graph String) (snapshot : Json) (output : Option String) (p : Progress)
    (f : Failure) (failed : ((deliver g snapshot output).exec given p).1 = .error f) :
    p.world.files.Within ((deliver g snapshot output).exec given p).2.world.files := by
  cases output with
  | none => cases failed
  | some path =>
    dsimp only [deliver] at failed ⊢
    rw [exec_bind, exec_writeFile] at failed ⊢
    have kept (o : Obstacle) := @Tree.write_within p.world.files (.ofText path)
      (snapshot.render .readable ++ "\n") o
    generalize p.world.files.write (.ofText path) (snapshot.render .readable ++ "\n") = written
      at failed kept ⊢
    obtain ⟨o | u, files⟩ := written
    · exact kept o rfl
    · cases failed

/-- The command replaces no file unless it succeeds. -/
theorem parse_within {source : String} {output : Option String} {again noCache : Bool} {f : Failure}
    (failed : ((parse source output again noCache).exec given p).1 = .error f) :
    p.world.files.Within ((parse source output again noCache).exec given p).2.world.files := by
  refine (spares_settings noCache).bind_within (fun settings q f => ?_) failed
  refine (spares_assemble settings.roster).bind_within fun g q f => ?_
  split
  · exact fun _ => ((spares_replay g source).closing (.withRoster _)) given q
  · exact ((spares_resolve g source settings.store).closing (.withRoster _)).bind_within
      fun x => deliver_within x.1 x.2 output

end Running

/-- Where a run writes the log of a failure that no report foresees, given the directory for it. -/
def Setup.logPlace (s : Setup) (directory : Place) : Place :=
  (directory.child "logs").child s!"crash-{s.time}.log"

/-- The log of a failure that no report foresees stands where a place leads. -/
def LoggedAt (s : Setup) (outcome : Except Failure Unit) (files : Files.Tree) (place : Place) : Prop :=
  ∃ f directory, outcome = .error f ∧ f.exitCode? = none ∧
    s.convention.data s.environment = .ok directory ∧ files.Meet (s.logPlace directory) place

/-- The log of a failure takes the place of one file at most. -/
theorem Running.log_read {given : Setup × Terminal} {p : Progress} (f : Failure) {place : Place}
    {bytes : List UInt8} (found : p.world.files.read place = .ok bytes) :
    let files := ((log f).exec given p).2.world.files
    files.read place = .ok bytes ∨ ∃ directory, given.1.convention.data given.1.environment = .ok directory ∧
      files.Meet (given.1.logPlace directory) place := by
  rw [log, exec_bind, exec_provide]
  cases hp : p.world.files.provide (given.1.convention.data given.1.environment) with
  | error f => exact .inl found
  | ok x =>
    obtain ⟨directory, files⟩ := x
    obtain ⟨here, kept⟩ := Tree.provide_within hp
    dsimp only
    rw [exec_bind, exec_setup]
    dsimp only
    rw [exec_bind, exec_writeFile]
    have left := Tree.write_read (given.1.logPlace directory) (f.message ++ "\n") (kept.read found)
    dsimp only [Setup.logPlace] at left ⊢
    generalize files.write _ _ = written at left ⊢
    obtain ⟨o | u, after⟩ := written
    · exact left.imp_right fun meet => ⟨directory, here, meet⟩
    · exact left.imp_right fun meet => ⟨directory, here, meet⟩

/-- A run that fails leaves the files that its command leaves, and a log of a failure that no report
foresees. -/
theorem execute_read {s : Setup} {w : World} {flags : List Flag} {c : Command} {place : Place}
    {bytes : List UInt8} (found : (carriedOut s w flags c).2.world.files.read place = .ok bytes) :
    (execute s w flags c).2.files.read place = .ok bytes ∨
      LoggedAt s (carriedOut s w flags c).1 (execute s w flags c).2.files place := by
  have run : (execute s w flags c).2 =
    ((Running.reported c).exec (s, terminalOf s flags) (.start w)).2.world := rfl
  have done : (Running.command c).exec (s, terminalOf s flags) (.start w) = carriedOut s w flags c := rfl
  rw [run, Running.reported_eq, done]
  generalize carriedOut s w flags c = x at found ⊢
  obtain ⟨f | u, q⟩ := x
  · dsimp only
    cases hf : f.exitCode? with
    | some code => exact .inl found
    | none =>
      exact (Running.log_read f found).imp_right fun ⟨directory, here, meet⟩ =>
        ⟨f, directory, rfl, hf, here, meet⟩
  · exact .inl found

/-- All the work of a run is done and its snapshot is stored, but the file for it cannot be written. -/
def Undelivered (s : Setup) (w : World) (source : String) (output : Option String) (noCache : Bool)
    (entries : Dict String Json) : Prop :=
  ∃ files snapshot store path o, prepared s w source noCache = .ok (files, snapshot, store) ∧
    entries = store.entries ∧ output = some path ∧
    (files.write (.ofText path) (textOf snapshot)).1 = .error o

theorem failure_of_exitCode {s : Setup} {w : World} {flags : List Flag} {c : Command}
    (failed : (execute s w flags c).1.exitCode ≠ 0) : ∃ f, (carriedOut s w flags c).1 = .error f := by
  obtain ⟨code, -⟩ := execute_eq s w flags c
  cases he : (carriedOut s w flags c).1 with
  | ok u => exact absurd (code.trans (congrArg codeOf he)) failed
  | error f => exact ⟨f, rfl⟩

/-- Only a file that cannot be written keeps a snapshot from being delivered. -/
theorem unwritten_of_delivered {files : Files.Tree} {snapshot : Json} {output : Option String}
    {f : Failure} (h : delivered files snapshot output = .error f) :
    ∃ path o, output = some path ∧ (files.write (.ofText path) (textOf snapshot)).1 = .error o := by
  cases output with
  | none => cases h
  | some path =>
    rw [delivered] at h
    cases hw : (files.write (.ofText path) (textOf snapshot)).1 with
    | error o => exact ⟨path, o, rfl, hw⟩
    | ok u =>
      rw [hw] at h
      cases h

section

variable {s : Setup} {w : World} {flags : List Flag} {source : String} {output : Option String}
  {noCache : Bool}

theorem parsed_of_exitCode
    (failed : (execute s w flags (.parse source output false noCache)).1.exitCode ≠ 0) :
    ∃ f, parsed s w source output noCache = .error f := by
  obtain ⟨code, -⟩ := execute_parse s w flags source output noCache
  cases hx : parsed s w source output noCache with
  | ok text => exact absurd (code.trans (congrArg codeOf hx)) failed
  | error f => exact ⟨f, rfl⟩

theorem entries_of_failed
    (failed : (execute s w flags (.parse source output false noCache)).1.exitCode ≠ 0) :
    let entries := (execute s w flags (.parse source output false noCache)).2.store.entries
    entries = w.store.entries ∨ Undelivered s w source output noCache entries := by
  obtain ⟨-, -, kept⟩ := execute_parse s w flags source output noCache
  obtain ⟨f, ended⟩ := parsed_of_exitCode failed
  rw [parsed] at ended
  cases hp : prepared s w source noCache with
  | error f' =>
    rw [hp] at kept
    exact .inl kept
  | ok x =>
    obtain ⟨files, snapshot, store⟩ := x
    rw [hp] at kept ended
    obtain ⟨path, o, there, unwritten⟩ := unwritten_of_delivered ended
    exact .inr ⟨files, snapshot, store, path, o, hp, kept, there, unwritten⟩

/-- A run that fails has printed nothing and has replaced no file, whether it stood where the snapshot
was to go or elsewhere; only the log of a failure that no report foresees may stand in its place. What
is stored is as it was, unless all of the work was done and nothing but the file could not be written. -/
theorem failed_run_leaves_no_results {again : Bool}
    (failed : (execute s w flags (.parse source output again noCache)).1.exitCode ≠ 0) :
    let run := execute s w flags (.parse source output again noCache)
    let ended := carriedOut s w flags (.parse source output again noCache)
    run.1.output = "" ∧
      (∀ place bytes, w.files.read place = .ok bytes →
        ended.2.world.files.read place = .ok bytes ∧
          (run.2.files.read place = .ok bytes ∨ LoggedAt s ended.1 run.2.files place)) ∧
      (run.2.store.entries = w.store.entries ∨
        again = false ∧ Undelivered s w source output noCache run.2.store.entries) := by
  intro run ended
  obtain ⟨-, shown, left⟩ := execute_eq s w flags (.parse source output again noCache)
  obtain ⟨f, fails⟩ := failure_of_exitCode failed
  have spared {place : Place} {bytes : List UInt8} (found : w.files.read place = .ok bytes) :
      ended.2.world.files.read place = .ok bytes := (Running.parse_within fails).read found
  refine ⟨?_, fun place bytes found => ⟨spared found, execute_read (spared found)⟩, ?_⟩
  · cases again with
    | true =>
      exact shown.trans (congrArg Prod.fst (Running.quiet_parse_again source output noCache _ (.start w)))
    | false =>
      obtain ⟨-, printed, -⟩ := execute_parse s w flags source output noCache
      obtain ⟨f', ends⟩ := parsed_of_exitCode failed
      rw [printed, ends]
      rfl
  · cases again with
    | true =>
      exact .inl (congrArg Store.entries
        (left.trans (Running.keepsStore_replay source output noCache _ (.start w))))
    | false => exact (entries_of_failed failed).imp_right fun undelivered => ⟨rfl, undelivered⟩

end

/-- A run whose generator fails at the first path that it hears of. -/
def balking : Setup :=
  { hosting [("a", { idler "a" with listens := ["PATH"], failsAt := some .listen })] with
    input := "\x7b\"openapi\": \"3.0.0\", \"paths\": \x7b\"/a\": \x7b\x7d\x7d\x7d" }

/-- The file of an earlier snapshot. -/
def balking.earlier : List UInt8 := "earlier".toUTF8.toList

/-- A world with the file and without stored snapshots. -/
def balking.world : World := ⟨[(.ofText "out.json", .file earlier)], .new⟩

theorem failed_run_leaves_no_results_balking :
    let run := execute balking balking.world [] (.parse "-" (some "out.json") false false)
    run.1.exitCode = 1 ∧ run.1.output = "" ∧
      balking.world.files.read (.ofText "out.json") = .ok balking.earlier ∧
      run.2.files.read (.ofText "out.json") = .ok balking.earlier ∧ run.2.store.entries = [] := by
  have failed : (execute balking balking.world []
      (.parse "-" (some "out.json") false false)).1.exitCode ≠ 0 := by decide +kernel
  have there : balking.world.files.read (.ofText "out.json") = .ok balking.earlier := by decide +kernel
  obtain ⟨shown, files, stored⟩ := failed_run_leaves_no_results failed
  refine ⟨by decide +kernel, shown, there, (files _ _ there).2.resolve_right ?_, stored.resolve_right ?_⟩
  · rintro ⟨f, directory, -, -, found, here, led, met⟩
    obtain rfl : (Place.ofText "data").child "specgraph" = directory := Except.ok.inj found
    have apart : (execute balking balking.world []
          (.parse "-" (some "out.json") false false)).2.files.locate
            (balking.logPlace ((Place.ofText "data").child "specgraph")) ≠
        (execute balking balking.world []
          (.parse "-" (some "out.json") false false)).2.files.locate (.ofText "out.json") := by
      decide +kernel
    exact apart (led.trans met.symm)
  · rintro ⟨-, files, snapshot, store, path, o, ready, -⟩
    have unready : (prepared balking balking.world "-" false).isOk = false := by decide +kernel
    rw [ready] at unready
    cases unready

end ApiGraph.CommandLine
