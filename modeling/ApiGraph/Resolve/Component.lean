import ApiGraph.Resolve.Node

/-! Components. Every name is given away before anything is resolved, so that components can
refer to each other in any order. A component that is nothing but a reference becomes a copy of
its target under its own name. -/

namespace ApiGraph

open Resolving

namespace Component

/-- A kind of components: the key that holds them, what is added to a name that is taken, and
the form of their nodes. -/
structure Group where
  key : String
  suffix : String
  hint : Option Schema.Form

/-- The kinds of components, in the order in which they are collected. -/
def groups : List Group :=
  [⟨"schemas", "Schema", none⟩, ⟨"responses", "Response", some .response⟩,
    ⟨"parameters", "Parameter", none⟩, ⟨"requestBodies", "RequestBody", some .requestBody⟩,
    ⟨"headers", "Header", none⟩, ⟨"securitySchemes", "SecurityScheme", none⟩]

/-- A declared component. -/
structure Entry where
  group : Group
  name : String
  node : Json

/-- The reference to a component. -/
def Entry.key (e : Entry) : String := Pointer.component e.group.key e.name

/-- The components of one kind. -/
def entriesOf (components : Json) (group : Group) : Resolving (List Entry) :=
  match components.get group.key with
  | .null => pure []
  | .obj entries => pure (entries.map fun p => ⟨group, p.1, p.2⟩)
  | _ => malformed (.componentSectionNotMapping group.key) s!"components.{group.key}"

/-- The components of a document, in the order in which they are collected. -/
def declared (document : Json) : Resolving (List Entry) := do
  let components := document.get "components"
  if !components.truthy then return []
  if !components.isObject then malformed .componentsNotMapping "components"
  return (← groups.mapM (entriesOf components)).flatten

/-- Gives away the name of a component. -/
def reserve (e : Entry) : Resolving Unit := do
  let r ← registry
  let wanted := if r.isTaken e.name then e.name ++ e.group.suffix else e.name
  setRegistry (r.reserve e.key wanted).2

/-- The name that was given to a component. -/
def canonicalName (e : Entry) : Resolving String := do
  return (((← registry).lookupRef e.key).map Ref.name).getD e.name

/-- Resolves a component. A header is a parameter whose name is its key. -/
def resolve (self : Resolver) (scope : Scope) (e : Entry) : Resolving (Link Model) := do
  let name ← canonicalName e
  let scope := scope.relocated ["components", e.group.key, e.name]
  let plain : Resolving (Link Model) := do
    return (← self { Site.ofOwner scope name with hint := e.group.hint } e.node).result
  match e.node with
  | .obj entries =>
    if e.group.key = "headers" && !e.node.has "$ref" then
      return .model (← Parameter.resolve self scope name (Header.asParameter e.name entries))
    else plain
  | _ => plain

/-- Registers a component that is not an alias. -/
def register (resolved : Entry × Link Model) : Resolving Unit :=
  match resolved with
  | (_, .ref _) => pure ()
  | (e, .model m) => do
    let _ ← assert e.node (.model m) (some e.key) .named (m.location.getD "")

/-- The components that are aliases, with the handles that they stand for. -/
def aliases (resolved : List (Entry × Link Model)) : List (Entry × Ref) :=
  resolved.filterMap fun p =>
    match p.2 with
    | .ref ref => some (p.1, ref)
    | .model _ => none

/-- The model of an alias, once its target is registered. -/
def aliasModel (r : Registry) (e : Entry) (name location : String) (ref : Ref) : Option Model :=
  if ref.isRemote then
    some { Model.blank name .schema with
      source := e.node
      location := some location
      type := some ref.name
      subtype := .str "object"
      dependencies := [.ref ref] }
  else
    ((r.resolve ref.name).bind Resolved.model).map fun m =>
      { m with name := name, location := some location }

/-- Registers an alias if its target is registered, and tells whether it was. -/
def registerAlias (e : Entry) (ref : Ref) : Resolving Bool := do
  let name ← canonicalName e
  let location := s!"components.{e.group.key}.{name}"
  match aliasModel (← registry) e name location ref with
  | none => return false
  | some m =>
    let _ ← assert .null (.model m) (some e.key) .named location
    return true

/-- Registers aliases whose targets are registered, and keeps the others. -/
def aliasRound : List (Entry × Ref) → Resolving (List (Entry × Ref))
  | [] => pure []
  | (e, ref) :: rest => do
    if ← registerAlias e ref then aliasRound rest
    else return (e, ref) :: (← aliasRound rest)

/-- Goes through aliases again as long as some of them could be registered. Each round but the
last registers one, so that as many rounds as there are aliases are enough. -/
def registerAliases : Nat → List (Entry × Ref) → Resolving Unit
  | _, [] => pure ()
  | 0, (e, ref) :: _ => fail (.missingReference ref.name e.key)
  | rounds + 1, pending => do
    match ← aliasRound pending with
    | [] => pure ()
    | (e, ref) :: rest =>
      if rest.length + 1 = pending.length then fail (.missingReference ref.name e.key)
      else registerAliases rounds ((e, ref) :: rest)

/-- Resolves each component, in order. -/
def resolveEach (self : Resolver) (scope : Scope) :
    List Entry → Resolving (List (Entry × Link Model))
  | [] => pure []
  | e :: rest => do
    let parsed ← resolve self scope e
    return (e, parsed) :: (← resolveEach self scope rest)

/-- Reserves, resolves and registers the components of a document. -/
def collect (document : Json) (self : Resolver) (scope : Scope) : Resolving Unit := do
  let entries ← declared document
  entries.forM reserve
  let resolved ← resolveEach self scope entries
  resolved.forM register
  let pending := aliases resolved
  registerAliases pending.length pending

end Component

end ApiGraph
