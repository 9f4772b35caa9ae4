import ApiGraph.Resolve.Component
import ApiGraph.Resolve.Operation

/-! The walk through a document: components, then paths with their operations, then all models
that were registered. It leaves a notice for each entity, in the order in which listeners get
them. -/

namespace ApiGraph

open Resolving

namespace Walk

/-- The operations of a path, verb by verb. -/
def operations (document : Json) (self : Resolver) (scope : Scope) (path : String)
    (item : Json) : List Verb → Resolving (List Method)
  | [] => pure []
  | verb :: rest => do
    match (item.get verb.word).nonNull with
    | none => operations document self scope path item rest
    | some operation =>
      let m ← Method.resolve document self (scope.down [verb.word]) verb path item operation
      notify (.entity [.method] (.method m))
      return m :: (← operations document self scope path item rest)

/-- The summary and description of a path. -/
def pathHeader (item : Json) : Shape.Checked (Option String × Option String) :=
  (fun a b => (a, b)) <$> Shape.withDefault ["summary"] none (Shape.optional Shape.text) item <*>
    descriptionOf item

/-- A path and its operations. -/
def path (document : Json) (self : Resolver) (scope : Scope) (name : String) (node : Json) :
    Resolving (Path × List Method) := do
  let scope := scope.relocated ["paths", name]
  let item ← dereference document scope node
  let (summary, description) ← fit (pathHeader item)
  let methods ← operations document self scope name item Verb.all
  let p : Path := ⟨name, .path, summary, description, methods.map Method.id⟩
  notify (.entity [.path] (.path p))
  return (p, methods)

/-- The paths of a document, in order. -/
def paths (document : Json) (self : Resolver) (scope : Scope) :
    Resolving (List (Path × List Method)) := do
  let ps := document.get "paths"
  if !ps.truthy then return []
  match ps with
  | .obj entries => entries.mapM fun p => path document self scope p.1 p.2
  | _ => malformed .pathsNotMapping "paths"

/-- Leaves a notice for each registered model. -/
def models : Resolving Unit := do
  for m in Dict.values (← registry).models do
    notify (.entity [m.kind, .model] (.model m))

end Walk

/-- Operations by identifier and paths by name. -/
structure Arena where
  methods : Dict String Method
  paths : Dict String Path

/-- The operations and paths of a walk. -/
def Arena.ofWalk (walked : List (Path × List Method)) : Arena where
  methods := Dict.ofEntries (walked.flatMap fun p => p.2.map fun m => (m.id, m))
  paths := Dict.ofEntries (walked.map fun p => (p.1.name, p.1))

/-- Resolves a whole document. -/
def walk (document : Json) : Resolving Arena := do
  let self := resolveNode document
  let scope := Scope.root
  Component.collect document self (scope.phase .named)
  let walked ← Walk.paths document self (scope.phase .structural)
  Walk.models
  return .ofWalk walked

end ApiGraph
