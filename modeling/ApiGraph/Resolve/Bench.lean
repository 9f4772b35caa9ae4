import ApiGraph.Resolve.Component
import ApiGraph.Resolve.Operation

/-! Resolution step by step. What nodes were resolved into is kept, so that it can be registered
later on; a model that is registered twice under different names has the last of them
everywhere. -/

namespace ApiGraph

/-- What a node was resolved into. -/
structure Specimen where
  raw : Json
  parsed : Link Model
  /-- The names under which it was registered. -/
  names : List String

/-- The state of a resolution that is made step by step. -/
structure Bench where
  document : Json
  progress : Progress
  specimens : List Specimen

namespace Bench

/-- A bench on which nothing was resolved. -/
def start (document : Json) : Bench := ⟨document, .start, []⟩

/-- Makes one step, which may fail and leave some of its changes. -/
def run (b : Bench) (step : Resolving α) : Except Failure α × Bench :=
  let (outcome, progress) := step.run.run b.progress
  (outcome, { b with progress := progress })

/-- The resolver for a step. -/
def resolver (b : Bench) : Resolver := resolveNode b.document

/-- Resolves a node and keeps what it is resolved into. -/
def resolve (b : Bench) (site : Site) (node : Json) : Except Failure Outcome × Bench :=
  let (outcome, b) := b.run (b.resolver site node)
  match outcome with
  | .ok out => (.ok out, { b with specimens := b.specimens ++ [⟨node, out.result, []⟩] })
  | .error f => (.error f, b)

/-- The position that an index stands for; a negative one counts from the end. -/
def position? (b : Bench) (i : Int) : Option Nat :=
  let n := b.specimens.length
  let k := if i < 0 then i + n else i
  if 0 ≤ k && k < n then some k.toNat else none

/-- The registry after a model was registered under one more name. -/
def share (r : Registry) (names : List String) (m : Model) : Registry :=
  { r with models := names.foldl (fun models name => Dict.adjust models name fun _ => m) r.models }

/-- Registers what was resolved before. -/
def register (b : Bench) (i : Int) (hint : Option String) (space : KeySpace)
    (location : String) : Except Failure Resolved × Bench :=
  match (b.position? i).bind fun k => (b.specimens[k]?).map fun s => (k, s) with
  | none => (.error (.misuse .outOfRange), b)
  | some (k, s) =>
    let before := b.progress.registry
    match before.assert s.raw s.parsed hint space location with
    | .error f => (.error f, b)
    | .ok (resolved, after) =>
      match resolved.model with
      | some m =>
        if before.contains resolved.ref.name then (.ok resolved, b)
        else
          let names := s.names ++ [resolved.ref.name]
          (.ok resolved, { b with
            progress := { b.progress with registry := share after names m }
            specimens := b.specimens.set k { s with parsed := .model m, names := names } })
      | none => (.ok resolved, b)

/-- The warnings that were given. -/
def warnings (b : Bench) : List String :=
  b.progress.notices.filterMap fun n =>
    match n with
    | .warning text => some text
    | .entity .. => none

end Bench

end ApiGraph
