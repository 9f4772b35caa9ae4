import ApiGraph.Delivery
import ApiGraph.Resolve.Walk
import ApiGraph.Version

/-! The graph of the last description that was resolved, or of the snapshot that was adopted,
and its listeners. A description that cannot be resolved, or whose delivery a listener ends,
leaves the graph as it was. -/

namespace ApiGraph

/-- A graph of models with its listeners. -/
structure Graph (τ : Type) where
  audience : Audience τ
  registry : Registry
  methods : Dict String Method
  paths : Dict String Path
  snapshot : Snapshot

namespace Graph

/-- The graph of nothing. -/
def empty : Graph τ := ⟨[], .empty, [], [], .empty⟩

/-- Adds a listener to a category. -/
def on (g : Graph τ) (category : Kind) (l : Listener τ) : Graph τ :=
  { g with audience := g.audience.subscribe category l }

/-- What others see of a change to a graph. -/
structure Change (τ : Type) where
  outcome : Except Failure Unit
  graph : Graph τ
  heard : List (τ × String)
  warnings : List String

/-- A change that failed before anything was delivered. -/
def refused (g : Graph τ) (f : Failure) : Change τ := ⟨.error f, g, [], []⟩

/-- The stage for a delivery to the listeners of a graph. -/
def stage (g : Graph τ) : Stage τ := ⟨g.audience, .empty, [], []⟩

/-- Resolves a document of an accepted version and delivers every entity in the order in which it
was found. -/
def resolveAll (g : Graph τ) (document : Json) : Change τ :=
  let (walked, progress) := (walk document).run.run .start
  let (played, s) := (Delivering.play progress.notices).run.run g.stage
  let unchanged := { g with audience := s.audience }
  match played, walked with
  | .error f, _ => ⟨.error f, unchanged, s.heard, s.warnings⟩
  | .ok _, .error f => ⟨.error f, unchanged, s.heard, s.warnings⟩
  | .ok _, .ok arena =>
    let graph : Graph τ :=
      ⟨s.audience, progress.registry, arena.methods, arena.paths,
        { s.snapshot with models := progress.registry.models }⟩
    ⟨.ok (), graph, s.heard, s.warnings⟩

/-- Resolves a document, if it is of an accepted version. -/
def parse (g : Graph τ) (document : Json) (source : Option String) : Change τ :=
  match declaredVersion document source with
  | .error f => g.refused f
  | .ok _ => g.resolveAll document

/-- The failure that a value without a JSON form is. -/
def copyFailure : Datum.CopyFlaw → Failure
  | .cyclic => .malformed .cyclicDocument ""
  | .huge => .malformed .hugeInteger ""
  | .badKey | .unordered => .misuse .wrongType

/-- Resolves the JSON form of a value that was read, if it is of an accepted version. -/
def parseDatum (g : Graph τ) (document : Datum) (source : Option String) : Change τ :=
  match document.declaration.bind fun declared => Declaration.accept declared source with
  | .error f => g.refused f
  | .ok _ =>
    match document.toJson with
    | .error flaw => g.refused (copyFailure flaw)
    | .ok document => g.resolveAll document

/-- The graph that a snapshot records. -/
def adopt (g : Graph τ) (snapshot : Snapshot) : Graph τ :=
  { g with
    registry := .restore snapshot.models
    methods := snapshot.methods
    paths := snapshot.paths
    snapshot := snapshot }

/-- Adopts a snapshot, and delivers its entities again if asked to. -/
def load (g : Graph τ) (snapshot : Snapshot) (emit : Bool) : Change τ :=
  let g := g.adopt snapshot
  if emit then
    let (played, s) := (Delivering.replay snapshot).run.run g.stage
    ⟨played, { g with audience := s.audience }, s.heard, s.warnings⟩
  else ⟨.ok (), g, [], []⟩

/-- Adopts the snapshot that a JSON value writes. -/
def loadJson (g : Graph τ) (data : Json) (emit : Bool) : Change τ :=
  match Snapshot.ofJson data with
  | .ok snapshot => g.load snapshot emit
  | .error flaw => g.refused (.load flaw)

/-- The model for a name or a declared key. -/
def resolve (g : Graph τ) (name : String) : Option Resolved := g.registry.resolve name

end Graph

end ApiGraph
