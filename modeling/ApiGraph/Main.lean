import ApiGraph.CommandLine.Run

/-! The program: it gathers what a run is given, runs it, and carries out what it left behind.
Addresses are not reached and no generators are installed. -/

namespace ApiGraph.Program

/-- The variables of the environment that a run looks at. -/
def variableNames : List String :=
  ["HOME", "XDG_CONFIG_HOME", "XDG_CACHE_HOME", "XDG_DATA_HOME", "NO_COLOR", "TERM",
    "SPECGRAPH_CACHE"]

/-- The environment of the process. -/
def environment : IO Environment := do
  let found ← variableNames.mapM fun name => do return (← IO.getEnv name).map (name, ·)
  return found.filterMap id

/-- What stands at a place of the disk: what can be read is a file, what else is there is taken
for a directory. -/
def entryAt (p : Files.Place) : IO (Option Files.Entry) := do
  try return some (.file (← IO.FS.readBinFile p.text).toList)
  catch _ =>
    try
      let _ ← IO.FS.realPath p.text
      return some .directory
    catch _ => return none

/-- Adds to a tree what stands at the end of some names and on the way there. -/
def survey (t : Files.Tree) (here : Files.Place) : List String → IO Files.Tree
  | [] => return t
  | name :: rest => do
    let here := here.step name
    if here.isAround then survey t here rest
    else
      match ← entryAt here with
      | none => return t
      | some entry => survey (Dict.put t here entry) here rest

/-- What stands at some places and on the ways there. -/
def surveyAll (places : List Files.Place) : IO Files.Tree :=
  places.foldlM (fun t p => survey t ⟨p.origin.settled, []⟩ p.names) []

/-- Carries out a change of what stands at a place. -/
def carryOut (before : Files.Tree) (p : Files.Place) (entry : Files.Entry) : IO Unit :=
  if before.lookup p = some entry then return
  else
    match entry with
    | .directory => IO.FS.createDirAll p.text
    | .file bytes => IO.FS.writeBinFile p.text ⟨bytes.toArray⟩

/-- All lines of a stream. -/
partial def readAll (stream : IO.FS.Stream) (read : String) : IO String := do
  let line ← stream.getLine
  if line.isEmpty then return read else readAll stream (read ++ line)

/-- The place of the stored snapshots, when anybody knows it. -/
def storeFile (env : Environment) : Option Files.Place :=
  ((Convention.bases.store env).map fun p => (p.child "snapshots").child "entries.json").toOption

/-- The places that a run looks at beside those of its arguments. -/
def ownPlaces (env : Environment) : List Files.Place :=
  ((Convention.bases.settings env).map Settings.fileIn).toOption.toList ++
    (storeFile env).toList ++ ((Convention.bases.data env).map (·.child "logs")).toOption.toList

/-- The stored snapshots in a file; a file that holds none of them is as good as no file. -/
def storeIn (files : Files.Tree) (p : Option Files.Place) : Store :=
  match p.bind fun p => (files.read p).toOption with
  | none => .new
  | some bytes =>
    match (Files.textOf bytes).toOption.bind fun text => (Json.parse text).toOption with
    | some v => .ofJson v
    | none => .new

end ApiGraph.Program

open ApiGraph ApiGraph.Program in
/-- Runs the program with the arguments of the process. -/
def main (args : List String) : IO UInt32 := do
  let env ← environment
  let stdout ← IO.getStdout
  let input ← if args.contains "-" then readAll (← IO.getStdin) "" else pure ""
  let before ← surveyAll (ownPlaces env ++ args.map Files.Place.ofText)
  let setup : CommandLine.Setup :=
    ⟨env, .bases, ← stdout.isTty, [], String.ofList (Files.joinBreaks input.toList),
      fun _ => .refused "the network cannot be reached", toString (← IO.monoMsNow)⟩
  let store := storeIn before (storeFile env)
  let (report, world) := CommandLine.run setup ⟨before, store⟩ args
  world.files.forM fun p => carryOut before p.1 p.2
  if world.store.keys ≠ store.keys then
    if let some place := storeFile env then
      IO.FS.writeFile place.text (world.store.toJson.render .line)
  stdout.putStr report.output
  (← IO.getStderr).putStr report.diagnostics
  return UInt32.ofNat report.exitCode
