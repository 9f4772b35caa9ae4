import ApiGraph.Resolve.Schema

/-! Parameters. A parameter with a primitive or array schema takes the schema over; one with an
object schema refers to the model of the schema, which is registered by its content. -/

namespace ApiGraph

open Resolving

namespace Parameter

/-- The media types of a parameter with content. -/
def mediaOf (node : Json) : Resolving (List Json) := do
  let content := node.get "content"
  if content.truthy then return (← membersOf content).map Prod.snd else return []

/-- The schema of a parameter, or of the first of its media types that has one. -/
def schemaOf (node : Json) : Resolving (Option Json) := do
  if !node.isObject then fail (.misuse .noMember)
  match node.get "schema" with
  | .obj entries => return some (.obj entries)
  | _ => return ((← mediaOf node).map (·.get "schema")).find? Json.isObject

/-- The place of a parameter. -/
def placeOf (scope : Scope) (node : Json) : Resolving ParameterPlace := do
  if !node.isObject then fail (.misuse .noMember)
  match (node.get "in").text?.bind ParameterPlace.ofWord? with
  | some place => return place
  | none =>
    malformed (.unknownLocation (node.get "name").shown (node.get "in").shown) scope.location

/-- Whether a model stands for an object, a map or a combination. -/
def isObjectShaped (m : Model) : Bool :=
  m.array != some true &&
    (!m.fields.isEmpty || m.allOf.isSome || m.anyOf.isSome || m.oneOf.isSome ||
      Dict.has m.extras "additionalProperties")

/-- A model whose values are those of a handle's model. -/
def refersTo (m : Model) (ref : Ref) : Model :=
  { m with type := some ref.name, subtype := .str "object", dependencies := [.ref ref] }

/-- A model that takes over the values of another. -/
def takesOver (m parsed : Model) : Model :=
  { m with
    type := parsed.type
    subtype := parsed.subtype
    array := parsed.array
    enum := parsed.enum
    default := parsed.default
    validations := parsed.validations
    extras := parsed.extras
    dependencies := parsed.dependencies }

/-- The values of a parameter. -/
def resolveValues (self : Resolver) (scope : Scope) (schema : Option Json) (m : Model) :
    Resolving Model := do
  match schema with
  | none => return m
  | some node =>
    let out ← self (.ofOwner scope s!"{m.name}Schema") node
    match out.result with
    | .ref ref => return refersTo m ref
    | .model parsed =>
      if isObjectShaped parsed then
        return refersTo m (← assertContent node out.result scope).ref
      else return takesOver m parsed

/-- The name of a parameter model: the given one, or one after its place and declared name. -/
def nameFor (given : String) (place : ParameterPlace) (node : Json) : Resolving String := do
  if !given.isEmpty then return given
  match node.get? "name" with
  | some v => return String.ofList (Naming.parameter place.word.toList v.shown.toList)
  | none => fail (.misuse .missingKey)

/-- A parameter as a model. -/
def resolve (self : Resolver) (scope : Scope) (given : String) (node : Json) :
    Resolving Model := do
  let place ← placeOf scope node
  let name ← nameFor given place node
  let description ← fit (descriptionOf node)
  let m := { Model.blank name place.kind with
    source := node
    location := some (scope.located name)
    description := description }
  let m ← resolveValues self scope (← schemaOf node) m
  if (node.get "required").truthy then
    return { m with validations := Dict.put m.validations "required" (.bool true) }
  else return m

end Parameter

end ApiGraph
