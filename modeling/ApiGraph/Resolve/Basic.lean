import ApiGraph.Schema.Form
import ApiGraph.Scope

/-! Resolution as a computation: it changes the registry, leaves notices behind and may fail.
What it changed before a failure stays changed. -/

namespace ApiGraph

/-- What a run leaves behind for others to see, in order. -/
inductive Notice where
  /-- An entity for the listeners of some categories. -/
  | entity (categories : List Kind) (e : Entity)
  /-- A warning in the log. -/
  | warning (text : String)

/-- The state of a run. -/
structure Progress where
  registry : Registry
  notices : List Notice
  /-- The names of operations that were given away. -/
  methodNames : List String

namespace Progress

/-- The state before anything is resolved. -/
def start : Progress := ⟨.empty, [], []⟩

end Progress

/-- A computation of a run. -/
abbrev Resolving (α : Type) := ExceptT Failure (StateM Progress) α

namespace Resolving

/-- Ends the run. -/
def fail (f : Failure) : Resolving α := throw f

/-- Ends the run because of a structural flaw. -/
def malformed (flaw : Schema.Flaw) (location : String) : Resolving α :=
  fail (.malformed flaw location)

/-- The outcome of something that may fail. -/
def lift : Except Failure α → Resolving α
  | .ok a => pure a
  | .error f => fail f

/-- A value that was read, or the end of the run because of its mismatches. -/
def fit : Shape.Checked α → Resolving α
  | .fits a => pure a
  | .fails ms => fail (.mismatch ms)

/-- The registry as it is now. -/
def registry : Resolving Registry := do return (← get).registry

/-- Changes the registry. -/
def setRegistry (r : Registry) : Resolving Unit := modify fun p => { p with registry := r }

/-- Leaves a notice. -/
def notify (n : Notice) : Resolving Unit := modify fun p => { p with notices := p.notices ++ [n] }

/-- The first free variant of a name, which is not given away yet. -/
def freeName (name : String) : Resolving String := do return (← registry).freeName name

/-- Gives a name away. -/
def claim (name : String) : Resolving Unit := do setRegistry ((← registry).claim name).2

/-- Registers what a node was resolved into. -/
def assert (raw : Json) (parsed : Link Model) (hint : Option String) (space : KeySpace)
    (location : String) : Resolving Resolved := do
  let (resolved, r) ← lift ((← registry).assert raw parsed hint space location)
  setRegistry r
  return resolved

/-- Registers a model by the content of the node it was resolved from. -/
def assertContent (raw : Json) (parsed : Link Model) (scope : Scope) : Resolving Resolved :=
  assert raw parsed none .structural scope.location

end Resolving

/-- What a node resolves into, and what its owner depends on because of it. -/
structure Outcome where
  result : Link Model
  needs : List (Link Model)

/-- How a node is to be resolved. -/
structure Site where
  scope : Scope
  /-- The name for the model, if one results. -/
  name : String
  /-- The members that an enclosing schema requires. -/
  required : List String
  /-- Whether the model keeps its dependencies rather than passing them on to its owner. -/
  owner : Bool
  /-- The form to assume of a node that does not tell its own. -/
  hint : Option Schema.Form

/-- The site of a node that owns its dependencies. -/
def Site.ofOwner (scope : Scope) (name : String) : Site := ⟨scope, name, [], true, none⟩

/-- A way to resolve nodes. -/
abbrev Resolver := Site → Json → Resolving Outcome

/-- The description of a node, which is a text if there is one. -/
def descriptionOf (node : Json) : Shape.Checked (Option String) :=
  Shape.withDefault ["description"] none (Shape.optional Shape.text) node

/-- The entries of a value that is used as an object. -/
def membersOf : Json → Resolving (List (String × Json))
  | .obj entries => pure entries
  | _ => .fail (.misuse .noMember)

end ApiGraph
