import ApiGraph.Resolve.Payload

/-! Operations. The parameters of a path are defaults that an operation overrides; those of one
place are also gathered into a model of their own, which has a field for each of them. -/

namespace ApiGraph

open Resolving

/-- The parts of a value that is gone through. -/
def itemsOf (v : Json) : Resolving (List Json) :=
  match v.parts? with
  | some parts => pure parts
  | none => fail (.misuse .wrongType)

namespace Parameter

/-- What tells two parameters apart: name and place, or a reference that leads out. -/
def identity (document : Json) (scope : Scope) (param : Json) : Resolving (String × String) := do
  let follow : Resolving (String × String) := do
    let target ← dereference document scope param
    let word (key : String) : String := ((target.get? key).map Json.shown).getD ""
    return (word "name", word "in")
  match param.get "$ref" with
  | .str ref => if Pointer.isLocal ref then follow else return (ref, "")
  | _ => follow

/-- The parameters of a path that an operation does not override, before its own. -/
def merge (document : Json) (scope : Scope) (pathParams opParams : Json) :
    Resolving (List Json) := do
  let own ← itemsOf opParams
  let overridden ← own.mapM (identity document scope)
  let kept ← (← itemsOf pathParams).filterM fun param => do
    return !overridden.contains (← identity document scope param)
  return kept ++ own

/-- The handles to the parameters of an operation, by place. -/
structure Groups where
  path : List Ref
  query : List Ref
  header : List Ref

/-- The groups with one more parameter at their end; those in cookies are not grouped. -/
def Groups.add (g : Groups) (place : ParameterPlace) (ref : Ref) : Groups :=
  match place with
  | .path => { g with path := g.path ++ [ref] }
  | .query => { g with query := g.query ++ [ref] }
  | .header => { g with header := g.header ++ [ref] }
  | .cookie => g

/-- Resolves and registers one parameter; one that leads out of the document is skipped with a
warning. -/
def resolveInto (self : Resolver) (scope : Scope) (groups : Groups) (param : Json) :
    Resolving Groups := do
  if param.isObject && !param.has "$ref" && !(param.has "name" && param.has "in") then
    malformed .incompleteParameter scope.location
  let out ← self { Site.ofOwner scope "" with hint := some .parameter } param
  let resolved ← assertContent param out.result scope
  match resolved.model with
  | none =>
    notify (.warning s!"Skipping remote parameter '{resolved.ref.name}' at {scope.location}")
    return groups
  | some m => return groups.add (← placeOf scope m.source) resolved.ref

/-- Resolves and registers parameters, the first of which has a given position. -/
def resolveFrom (self : Resolver) (scope : Scope) :
    Nat → List Json → Groups → Resolving Groups
  | _, [], groups => pure groups
  | i, param :: rest, groups => do
    let groups ← resolveInto self (scope.down ["parameters", toString i]) groups param
    resolveFrom self scope (i + 1) rest groups

/-- Resolves and registers the parameters of an operation. -/
def resolveAll (self : Resolver) (scope : Scope) (params : List Json) : Resolving Groups :=
  resolveFrom self scope 0 params ⟨[], [], []⟩

/-- The first of some values that passes a test for it, or the last. -/
def firstTruthy : List Json → Json
  | [] => .null
  | [v] => v
  | v :: rest => if v.truthy then v else firstTruthy rest

/-- The field for a parameter. -/
def fieldOf (m : Model) : Resolving Field := do
  let source := if m.source.truthy then m.source else .obj []
  let schema := (← schemaOf source).getD (.obj [])
  let items := if (schema.get "items").isObject then schema.get "items" else .obj []
  let (subtype, enum) ← fit ((fun a b => (a, b)) <$>
    (match firstTruthy [m.subtype, schema.get "format", items.get "format"] with
      | .null => .fits .null
      | .str s => .fits (.str s)
      | _ => (.refuse .text : Shape.Checked Json).under (.key "subtype")) <*>
    (match firstTruthy [m.enum, schema.get "enum"] with
      | .null => .fits .null
      | .arr vs => .fits (.arr vs)
      | _ => (.refuse .list : Shape.Checked Json).under (.key "enum")))
  return {
    name := ((source.get? "name").map Json.shown).getD m.name
    kind := m.kind
    type := m.type
    subtype := subtype
    enum := enum
    array := m.array
    required := (source.get "required").truthy
    default := m.default
    description := m.description
    validations := m.validations
    extras := m.extras }

/-- The fields for some handles, with what their models depend on. -/
def fieldsOf (scope : Scope) : List Ref → Resolving (List Field × List (Link Model))
  | [] => pure ([], [])
  | ref :: rest => do
    let resolved ← lift ((← registry).requireRef ref scope.location)
    match resolved.model with
    | none => fail (.misuse .noMember)
    | some m =>
      let field ← fieldOf m
      let (fields, needs) ← fieldsOf scope rest
      return (field :: fields, m.dependencies ++ needs)

/-- The model that gathers parameters, if there are any. -/
def gather (scope : Scope) (params : List Ref) (name : String) : Resolving (Option Ref) := do
  if params.isEmpty then return none
  let (fields, needs) ← fieldsOf scope params
  let m := { Model.blank name .methodParam with fields := fields, dependencies := needs }
  let resolved ← assert .null (.model m) (some name) .named scope.location
  return some resolved.ref

end Parameter

namespace Method

/-- A name for an operation that no other has. -/
def claimName (name : String) : Resolving String := do
  let taken := (← get).methodNames
  let free := Registry.freeVariant taken name
  modify fun p => { p with methodNames := free :: taken }
  return free

/-- The name that an operation asks for. -/
def wantedName (verb path : String) (operationId : Json) : Resolving String :=
  let named (s : String) : String :=
    String.ofList (Naming.method s.toList verb.toList path.toList)
  if operationId.truthy then
    match operationId with
    | .str s => pure (named s)
    | _ => fail (.misuse .wrongType)
  else pure (named "")

/-- The value of a key, or another one when a test of it fails. -/
def orElse (v other : Json) : Json := if v.truthy then v else other

/-- The security requirements of an operation: its own when it declares some, else those of the
document. -/
def securityOf (document operation : Json) : Json :=
  let holder := if operation.has "security" then operation else document
  orElse (holder.get "security") (.arr [])

/-- The parts of an operation that are taken over as they are: identifier, summary, description,
tags and security requirements. -/
structure Header where
  operationId : Option String
  summary : Option String
  description : Option String
  tags : List String
  security : List (Dict String (List String))

/-- Reads the parts that are taken over. -/
def readHeader (operation : Json) (tags : List Json) (security : Json) : Shape.Checked Header :=
  let text (key name : String) : Shape.Checked (Option String) :=
    (Shape.optional Shape.text (operation.get key)).under (.key name)
  Header.mk <$> text "operationId" "operation_id" <*> text "summary" "summary" <*>
    text "description" "description" <*>
    (Shape.list Shape.text (.arr tags)).under (.key "tags") <*>
    (Shape.list (Shape.dict (Shape.list Shape.text)) security).under (.key "security")

/-- An operation on a path. -/
def resolve (document : Json) (self : Resolver) (scope : Scope) (verb : Verb) (path : String)
    (item operation : Json) : Resolving Method := do
  if !operation.isObject then malformed .operationNotMapping scope.location
  let name ← claimName (← wantedName verb.word path (operation.get "operationId"))
  let tags ← itemsOf (orElse (operation.get "tags") (.arr []))
  if !item.isObject then fail (.misuse .noMember)
  let params ← Parameter.merge document scope (orElse (item.get "parameters") (.arr []))
    (orElse (operation.get "parameters") (.arr []))
  let groups ← Parameter.resolveAll self scope params
  let header ← fit (readHeader operation tags (securityOf document operation))
  let pathObject ← Parameter.gather scope groups.path s!"{name}Path"
  let queryObject ← Parameter.gather scope groups.query s!"{name}Query"
  let headerObject ← Parameter.gather scope groups.header s!"{name}Headers"
  let o : Occasion := ⟨header.tags.head?, path, verb.word⟩
  let responses ← Response.resolveAll document self scope o
    (orElse (operation.get "responses") (.obj []))
  let requestBodies ←
    if (operation.get "requestBody").isNull then pure []
    else RequestBody.resolveAll document self scope o (operation.get "requestBody")
  return {
    name := name
    kind := .method
    verb := verb
    path := path
    operationId := header.operationId
    summary := header.summary
    description := header.description
    tags := header.tags
    deprecated := (operation.get "deprecated").truthy
    security := header.security
    pathParams := groups.path
    queryParams := groups.query
    headerParams := groups.header
    pathObject := pathObject
    queryObject := queryObject
    headerObject := headerObject
    responses := responses
    requestBodies := requestBodies }

end Method

end ApiGraph
