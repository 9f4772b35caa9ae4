import ApiGraph.Resolve.Header

/-! What a media type carries, and the responses and request bodies of operations: one for each
status and media type. -/

namespace ApiGraph

open Resolving

/-- What a media type carries: a primitive type, or a model, or a list of either. -/
structure Payload where
  type : Option String
  ref : Option Ref
  array : Option Bool

namespace Payload

/-- Nothing. -/
def none : Payload := ⟨.none, .none, .none⟩

/-- A value of a primitive type, or a list of them. -/
def primitive (schema : Json) (array : Option Bool) : Payload :=
  ⟨(Schema.declaredType schema).1, .none, array⟩

/-- A model, or a list of them. -/
def ofRef (ref : Ref) (array : Option Bool) : Payload := ⟨some ref.name, some ref, array⟩

/-- A schema that is registered by its content. -/
def resolveRegistered (self : Resolver) (scope : Scope) (name : String) (schema : Json)
    (array : Option Bool) : Resolving Payload := do
  let out ← self (.ofOwner scope name) schema
  let resolved ← assertContent schema out.result scope
  return ofRef resolved.ref array

/-- The payload of a schema. A primitive one is not registered, and of an array only the items
are. -/
def resolve (self : Resolver) (scope : Scope) (name : String) (schema : Json) :
    Resolving Payload := do
  if schema.isNull then return none
  if Schema.isPrimitive schema then return primitive schema .none
  if schema.isObject && !schema.has "$ref" && (Schema.declaredType schema).1 = some "array" then
    match (schema.get "items").nonNull with
    | .none => malformed (.arrayPayloadWithoutItems name) scope.location
    | some items =>
      if Schema.isPrimitive items then return primitive items (some true)
      else resolveRegistered self (scope.down ["items"]) name items (some true)
  else resolveRegistered self scope name schema .none

end Payload

/-- The operation that payloads are named after. -/
structure Occasion where
  tag : Option String
  path : String
  verb : String

namespace Occasion

/-- The name of a payload. -/
def payloadName (o : Occasion) (mediaType status : Option String) : String :=
  let chars (s : Option String) : List Char := (s.getD "").toList
  String.ofList
    (Naming.response (chars o.tag) o.path.toList o.verb.toList (chars mediaType) (chars status))

end Occasion

namespace Response

/-- The responses of one status, one for each media type. -/
def resolveMedia (self : Resolver) (scope : Scope) (o : Occasion) (status : String)
    (headers : Dict String Ref) (node : Json) :
    List (String × Json) → Resolving (List Response)
  | [] => pure []
  | (mediaType, media) :: rest => do
    if !media.isObject then malformed (.mediaNotMapping mediaType) scope.location
    let name := o.payloadName (some mediaType) (some status)
    let payload ← Payload.resolve self (scope.down ["content", mediaType]) name
      (media.get "schema")
    let description ← fit (descriptionOf node)
    let response : Response :=
      ⟨name, .response, status, payload.type, payload.ref, payload.array, headers, description,
        some mediaType⟩
    return response :: (← resolveMedia self scope o status headers node rest)

/-- The responses of one status. -/
def resolveStatus (document : Json) (self : Resolver) (scope : Scope) (o : Occasion)
    (status : String) (response : Json) : Resolving (List Response) := do
  let node ← dereference document scope response
  let headers ← Header.resolveAll document self scope (node.get "headers")
  let content := node.get "content"
  if content.truthy then resolveMedia self scope o status headers node (← membersOf content)
  else
    let description ← fit (descriptionOf node)
    return [⟨o.payloadName none (some status), .response, status, none, none, none, headers,
      description, none⟩]

/-- The responses of each status, in order. -/
def resolveEach (document : Json) (self : Resolver) (scope : Scope) (o : Occasion) :
    List (String × Json) → Resolving (List Response)
  | [] => pure []
  | (status, response) :: rest => do
    let here ← resolveStatus document self (scope.down ["responses", status]) o status response
    return here ++ (← resolveEach document self scope o rest)

/-- The responses of an operation. -/
def resolveAll (document : Json) (self : Resolver) (scope : Scope) (o : Occasion)
    (responses : Json) : Resolving (List Response) :=
  match responses with
  | .obj entries => resolveEach document self scope o entries
  | _ => malformed .responsesNotMapping scope.location

end Response

namespace RequestBody

/-- The schema of a media type, or what stands in its place. -/
def shapeOf (media : Json) : Json := if media.isObject then media.get "schema" else media

/-- The number of different contents among some media types. -/
def distinctShapes (content : List (String × Json)) : Nat :=
  (content.map fun p => (shapeOf p.2).canonical).eraseDups.length

/-- The request bodies of each media type, which share the payload of the first. -/
def resolveMedia (self : Resolver) (scope : Scope) (o : Occasion) (node : Json) :
    Option Payload → List (String × Json) → Resolving (List RequestBody)
  | _, [] => pure []
  | shared, (mediaType, media) :: rest => do
    if !media.isObject then malformed (.mediaNotMapping mediaType) scope.location
    let name := o.payloadName (some mediaType) none
    let payload ←
      match shared with
      | some payload => pure payload
      | none =>
        Payload.resolve self (scope.down ["content", mediaType]) name (media.get "schema")
    let description ← fit (descriptionOf node)
    let body : RequestBody :=
      ⟨name, .requestBody, payload.type, payload.ref, payload.array,
        (node.get "required").truthy, description, some mediaType⟩
    return body :: (← resolveMedia self scope o node (some payload) rest)

/-- The request bodies of an operation, whose media types must carry the same. -/
def resolveAll (document : Json) (self : Resolver) (scope : Scope) (o : Occasion) (body : Json) :
    Resolving (List RequestBody) := do
  let scope := scope.down ["requestBody"]
  let node ← dereference document scope body
  let content := node.get "content"
  if !content.truthy then return []
  match content with
  | .obj entries =>
    let count := distinctShapes entries
    if 1 < count then malformed (.distinctShapes count) scope.location
    resolveMedia self scope o node none entries
  | _ => malformed .contentNotMapping scope.location

end RequestBody

end ApiGraph
