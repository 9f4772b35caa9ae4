import ApiGraph.CommandLine.Arguments
import ApiGraph.Roster
import ApiGraph.Source
import ApiGraph.Store
import ApiGraph.Terminal

/-! Runs of the command line. A run reads from its surroundings; what it leaves behind are files
and stored snapshots. Nothing is written to the output or to the file for it unless all the work
before has succeeded. A failure that no report foresees goes to a log. -/

namespace ApiGraph.CommandLine

/-- What a run is given. -/
structure Setup where
  environment : Environment
  convention : Convention
  /-- Whether someone looks at the output on a screen. -/
  isScreen : Bool
  /-- The installed generators, by the names they are installed under. -/
  installed : List (String × Generator)
  input : String
  answer : String → Answer
  /-- The time of the run, as it stands in the name of a log. -/
  time : String

/-- What outlives a run. -/
structure World where
  files : Files.Tree
  store : Store

/-- A run on its way. -/
structure Progress where
  world : World
  roster : Roster
  output : String
  diagnostics : String

/-- A step of a run, with what it is given and the terminal it speaks to. -/
abbrev Running := ReaderT (Setup × Terminal) (ExceptT Failure (StateM Progress))

namespace Running

/-- What the run is given. -/
def setup : Running Setup := return (← read).1

/-- Says something about the results. -/
def say (tone : Terminal.Tone) (message : String) : Running Unit := do
  let t := (← read).2
  modify fun p => { p with diagnostics := p.diagnostics ++ t.say tone message }

/-- Adds to the results. -/
def print (text : String) : Running Unit :=
  modify fun p => { p with output := p.output ++ text }

/-- An outcome as a step. -/
def lift (outcome : Except Failure α) : Running α := fun _ => ExceptT.mk (pure outcome)

/-- A step with the roster. -/
def withRoster (step : Rostering α) : Running α := fun _ => ExceptT.mk do
  let p ← get
  let (outcome, roster) := (ExceptT.run step).run p.roster
  set { p with roster }
  return outcome

/-- A step after which another one is taken, whether it failed or not. -/
def closing (after : Running Unit) (step : Running α) : Running α := fun given => ExceptT.mk do
  let outcome ← ExceptT.run (step given)
  let closed ← ExceptT.run (after given)
  return closed.bind fun _ => outcome

/-- Makes a directory and those around it unless they are there. -/
def provide (place : Convention → Environment → Except Failure Files.Place) :
    Running Files.Place := do
  let s ← setup
  let p ← get
  let (made, files) ← lift (p.world.files.provide (place s.convention s.environment))
  set { p with world := { p.world with files } }
  return made

/-- The settings of the run. -/
def settings (noCache : Bool) : Running Settings := do
  let directory ← provide Convention.settings
  lift (Settings.load (← get).world.files directory (← setup).environment ⟨none, noCache⟩)

/-- The document at a source. -/
def load (source : String) : Running Datum := do
  let s ← setup
  lift ((Source.ofText source).load ⟨(← get).world.files, s.input, s.answer⟩)

/-- The graph after a change; what its listeners got is noted. -/
def adopt (c : Graph.Change String) : Running (Graph String) := do
  withRoster (modify fun r => { r with journal := r.journal ++ c.heard })
  lift c.outcome
  return c.graph

/-- Opens the store, unless it is switched off. -/
def openStore (rules : StoreSettings) : Running Unit := do
  let place ← provide Convention.store
  if rules.enabled then
    let _ ← provide fun _ _ => .ok (place.child "snapshots")
  else say .debug "Snapshot cache disabled"
  modify fun p => { p with world := { p.world with store := p.world.store.opened rules } }

/-- Resolves a document, or finds its snapshot in the store. A new snapshot is stored only after
all listeners got all entities. -/
def resolve (g : Graph String) (source : String) (rules : StoreSettings) :
    Running (Graph String × Json) := do
  let document ← load source
  openStore rules
  match ← lift ((← get).world.store.find? rules document) with
  | some stored => do
    say .debug s!"Snapshot cache hit for {source}"
    let g ← adopt (g.loadJson stored true)
    return (g, stored)
  | none => do
    let g ← adopt (g.parseDatum document (some source))
    let snapshot := g.snapshot.toJson
    let store ← lift ((← get).world.store.keep rules document snapshot)
    modify fun p => { p with world := { p.world with store } }
    return (g, snapshot)

/-- Delivers a snapshot in a file again. -/
def replay (g : Graph String) (path : String) : Running Unit := do
  let snapshot ← lift (Snapshot.ofFile (← get).world.files path)
  let members := (← get).roster.members.length
  if members = 0 then
    say .warning "No generators installed; the replayed entities have no listeners"
  let _ ← adopt (g.load snapshot true)
  say .success s!"Replayed {snapshot.count} entities to {members} generator(s)"

/-- Writes a file and makes the directories around it. -/
def writeFile (place : Files.Place) (text : String) : Running Unit := do
  let p ← get
  let (outcome, files) := p.world.files.write place text
  set { p with world := { p.world with files } }
  lift (outcome.mapError fun o => .misuse o.misuse)

/-- Writes a snapshot to the output or to a file. -/
def deliver (g : Graph String) (snapshot : Json) (output : Option String) : Running Unit := do
  let text := snapshot.render .readable ++ "\n"
  match output with
  | none => print text
  | some path => do
    let place := Files.Place.ofText path
    writeFile place text
    say .success s!"Wrote {g.registry.models.length} models to {place.text}"

/-- Starts the generators and subscribes them to a graph. -/
def assemble (rules : RosterSettings) : Running (Graph String) := do
  let names ← withRoster (Roster.discover rules (← setup).installed)
  let shown := if names.isEmpty then "(none)" else String.intercalate ", " names
  say .debug s!"Loaded generators: {shown}"
  let (outcome, audience) := (← get).roster.subscribe []
  lift outcome
  let g : Graph String := .empty
  return { g with audience }

/-- Lets the generators clean up. -/
def disband : Running Unit := withRoster Roster.disband

/-- The command that resolves a document or delivers a snapshot again. -/
def parse (source : String) (output : Option String) (again noCache : Bool) : Running Unit := do
  let s ← settings noCache
  let g ← assemble s.roster
  if again then closing disband (replay g source)
  else do
    let (g, snapshot) ← closing disband (resolve g source s.store)
    deliver g snapshot output

/-- Shows a table. -/
def showTable (headers : List String) (rows : List (List String)) : Running Unit := do
  let (outcome, text) := (← read).2.table (.arr (headers.map .str)) (.arr (rows.map fun row => .arr (row.map .str)))
  print text
  lift outcome

/-- The command that shows a view of what a document resolves to. -/
def inspect (view : View) (source : String) : Running Unit := do
  let document ← load source
  let change := (Graph.empty : Graph String).parseDatum document (some source)
  lift change.outcome
  let rows ← lift (Inspection.rows change.graph view)
  if rows.isEmpty then say .info view.emptyMessage else showTable view.headers rows

/-- The row of a generator. -/
def generatorRow (g : Generator) : List String :=
  [g.label, g.version, Inspection.orDash g.description]

/-- The generators that take part. -/
def members : Running (List Generator) := do
  let s ← settings false
  let _ ← withRoster (Roster.discover s.roster (← setup).installed)
  return Dict.values (← get).roster.members

/-- The command that lists the generators. -/
def generators : Running Unit := do
  let found ← closing disband members
  if found.isEmpty then do
    say .info "No generators installed."
    say .suggestion "Register one under the 'specgraph.generators' entry-point group."
  else showTable ["Name", "Version", "Description"] (found.map generatorRow)

/-- Does what a command says. -/
def command : Command → Running Unit
  | .parse source output again noCache => parse source output again noCache
  | .inspect view source => inspect view source
  | .generators => generators

/-- Writes the log of a failure that no report foresees, and tells where it is. -/
def log (f : Failure) : Running Unit := do
  let directory ← provide Convention.data
  let place := (directory.child "logs").child s!"crash-{(← setup).time}.log"
  writeFile place (f.message ++ "\n")
  say .error s!"Unexpected error. Debug log: {place.text}"

/-- Does what a command says and reports a failure; the answer is the exit code. -/
def reported (c : Command) : Running Nat := fun given => ExceptT.mk do
  match ← ExceptT.run (command c given) with
  | .ok _ => return .ok 0
  | .error f =>
    match f.exitCode? with
    | some code => do
      let _ ← ExceptT.run (say .error f.report given)
      return .ok code
    | none => do
      let _ ← ExceptT.run (log f given)
      return .ok 1

end Running

/-- What is seen of a run. -/
structure Report where
  exitCode : Nat
  output : String
  diagnostics : String
  /-- Which generators did what, in order. -/
  journal : List (String × String)

/-- The report of a run that does nothing but answer. -/
def Report.brief (exitCode : Nat) (output : String) : Report := ⟨exitCode, output, "", []⟩

/-- The terminal that options ask for. -/
def terminalOf (s : Setup) (flags : List Flag) : Terminal :=
  let format : Format :=
    if flags.contains .json then .json else if flags.contains .plain then .plain else .auto
  .make format (flags.contains .noColor) (flags.contains .quiet) (flags.contains .verbose)
    s.environment s.isScreen

/-- Runs a command in a world. -/
def execute (s : Setup) (w : World) (flags : List Flag) (c : Command) : Report × World :=
  let (outcome, p) := (ExceptT.run (Running.reported c (s, terminalOf s flags))).run
    ⟨w, .empty, "", ""⟩
  (⟨outcome.toOption.getD 1, p.output, p.diagnostics, p.roster.journal⟩, p.world)

/-- Runs what some arguments ask for. -/
def run (s : Setup) (w : World) (args : List String) : Report × World :=
  match Call.ofArguments args with
  | .misused => (⟨2, "", usage, []⟩, w)
  | .version => (.brief 0 s!"specgraph {release}\n", w)
  | .help => (.brief 0 usage, w)
  | .command flags c => execute s w flags c

end ApiGraph.CommandLine
