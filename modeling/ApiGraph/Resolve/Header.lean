import ApiGraph.Resolve.Parameter

/-! Headers, which are parameters whose name is their key, and the components that have headers
but whose content is resolved only where an operation uses them. -/

namespace ApiGraph

open Resolving

namespace Header

/-- A header as a parameter. -/
def asParameter (name : String) (entries : List (String × Json)) : Json :=
  .obj (Dict.put (Dict.put entries "name" (.str name)) "in" (.str ParameterPlace.header.word))

/-- One header. -/
def resolve (document : Json) (self : Resolver) (scope : Scope) (name : String) (node : Json) :
    Resolving Ref := do
  match node with
  | .obj entries =>
    if node.has "$ref" then resolveReference document self scope node
    else
      let header := asParameter name entries
      let m ← Parameter.resolve self scope "" header
      return (← assertContent header (.model m) scope).ref
  | _ => malformed (.headerNotMapping name) scope.location

/-- Each of some headers, in order. -/
def resolveEach (document : Json) (self : Resolver) (scope : Scope) :
    List (String × Json) → Resolving (Dict String Ref)
  | [] => pure []
  | (name, node) :: rest => do
    let ref ← resolve document self (scope.down ["headers", name]) name node
    return (name, ref) :: (← resolveEach document self scope rest)

/-- The headers of a response. -/
def resolveAll (document : Json) (self : Resolver) (scope : Scope) (headers : Json) :
    Resolving (Dict String Ref) := do
  if !headers.truthy then return []
  match headers with
  | .obj entries => resolveEach document self scope entries
  | _ => malformed .headersNotMapping scope.location

/-- A declared response or request body as a model. -/
def resolveHolder (document : Json) (self : Resolver) (scope : Scope) (kind : Kind)
    (name : String) (node : Json) : Resolving Model := do
  let description ← fit (descriptionOf node)
  let required := (node.get "required").truthy
  let headers ← resolveAll document self (scope.down [name]) (node.get "headers")
  return { Model.blank name kind with
    source := node
    location := some (scope.located name)
    description := description
    validations := if required then [("required", .bool true)] else []
    extras :=
      if headers.isEmpty then []
      else [("headers", .obj (headers.map fun p => (p.1, .str p.2.name)))] }

end Header

end ApiGraph
