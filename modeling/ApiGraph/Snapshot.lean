import ApiGraph.Entity.Reader
import ApiGraph.Entity.Writer
import ApiGraph.Failure
import ApiGraph.Json.Writer

/-! Snapshots: the entities of a run under the categories they were delivered under, both in
the order of their first delivery, and the registered models. As JSON a snapshot is an object
with a list for each category and the models under a key of their own. -/

namespace ApiGraph

/-- The record of a run. -/
structure Snapshot where
  events : Dict Kind (List Entity)
  models : Dict String Model

namespace Snapshot

/-- The record of nothing. -/
def empty : Snapshot := ⟨[], []⟩

/-- The entities of a category. -/
def get (s : Snapshot) (category : Kind) : List Entity := (s.events.lookup category).getD []

/-- The record with one more entity at the end of a category. -/
def record (s : Snapshot) (category : Kind) (e : Entity) : Snapshot :=
  { s with events := Dict.put s.events category (s.get category ++ [e]) }

/-- The number of entities, each counted once for each of its categories. -/
def count (s : Snapshot) : Nat := s.events.foldl (fun n p => n + p.2.length) 0

/-- The entities with their categories, category by category. -/
def deliveries (s : Snapshot) : List (Kind × Entity) :=
  s.events.flatMap fun p => p.2.map fun e => (p.1, e)

/-- The operations, by identifier. -/
def methods (s : Snapshot) : Dict String Method :=
  Dict.ofEntries ((s.get .method).filterMap fun e =>
    match e with
    | .method m => some (m.id, m)
    | _ => none)

/-- The paths, by name. -/
def paths (s : Snapshot) : Dict String Path :=
  Dict.ofEntries ((s.get .path).filterMap fun e =>
    match e with
    | .path p => some (p.name, p)
    | _ => none)

/-- The key of the registered models. -/
def modelsKey : String := "referenceMap"

/-- A snapshot as JSON. -/
def toJson (s : Snapshot) : Json :=
  .obj ((s.events.map fun p => (p.1.word, .arr (p.2.map Entity.toJson))) ++
    [(modelsKey, .obj (s.models.map fun p => (p.1, p.2.toJson)))])

/-- A snapshot as text, on one line or indented. -/
def toText (s : Snapshot) (indent : Option Nat) : String :=
  match indent with
  | none => s.toJson.render .line
  | some n => s.toJson.render (.indented n)

/-- Something that was read, or a flaw of the snapshot. -/
def accept : Shape.Checked α → Except LoadFlaw α
  | .fits a => .ok a
  | .fails ms => .error (.snapshotMismatch (some ms))

/-- The parts of a value that stands for the entities of a category. -/
def itemsOf (v : Json) : Except LoadFlaw (List Json) :=
  match v.parts? with
  | some parts => .ok parts
  | none => .error (.snapshotMismatch none)

/-- The registered models of a snapshot. -/
def readModels : Json → Except LoadFlaw (Dict String Model)
  | .obj entries => entries.mapM fun p => do return (p.1, ← accept (Model.ofJson p.2))
  | _ => .error (.snapshotMismatch none)

/-- The snapshot with one more entry of its JSON form. -/
def readEntry (s : Snapshot) (entry : String × Json) : Except LoadFlaw Snapshot := do
  if entry.1 = modelsKey then return { s with models := ← readModels entry.2 }
  match Kind.ofWord? entry.1 with
  | none => .error (.unknownCategory entry.1)
  | some category =>
    let entities ← (← itemsOf entry.2).mapM fun v => accept (Entity.ofJson category v)
    return { s with events := Dict.put s.events category entities }

/-- The snapshot that a JSON value writes. -/
def ofJson : Json → Except LoadFlaw Snapshot
  | .obj entries => entries.foldlM readEntry empty
  | _ => .error .notSnapshot

end Snapshot

end ApiGraph
