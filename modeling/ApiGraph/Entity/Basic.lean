import ApiGraph.Entity.Kind
import ApiGraph.Json.Basic

/-! The entities that a description is resolved into. A model holds other models only where it
embeds them; to a model with a name of its own it has a reference. -/

namespace ApiGraph

/-- A handle to a model: by its name, or the literal text of a reference that leads out of the
document. -/
structure Ref where
  name : String
  kind : Kind
deriving DecidableEq

namespace Ref

/-- The handle to the model of a name. -/
def named (name : String) : Ref := ⟨name, .ref⟩

/-- The handle for a reference that leads out of the document. -/
def remote (ref : String) : Ref := ⟨ref, .remoteRef⟩

/-- Whether the handle leads out of the document. -/
def isRemote (r : Ref) : Bool := r.kind == .remoteRef

end Ref

/-- A member of a model. A default that is set may be null. -/
structure Field where
  name : String
  kind : Kind
  type : Option String
  /-- Null when there is none. -/
  subtype : Json
  /-- Null when there is none. -/
  enum : Json
  array : Option Bool
  required : Bool
  default : Option Json
  description : Option String
  validations : Dict String Json
  extras : Dict String Json

/-- Something that a model depends on: a reference, or a model that it embeds. -/
inductive Link (M : Type) where
  | ref (r : Ref)
  | model (m : M)

/-- A resolved schema, parameter, response, request body or security scheme. -/
structure Model where
  name : String
  kind : Kind
  /-- The node that the model was resolved from, null when there is none. -/
  source : Json
  location : Option String
  type : Option String
  /-- Null when there is none. -/
  subtype : Json
  array : Option Bool
  /-- Null when there is none. -/
  enum : Json
  /-- A default that is set may be null. -/
  default : Option Json
  description : Option String
  validations : Dict String Json
  extras : Dict String Json
  dependencies : List (Link Model)
  fields : List Field
  allOf : Option (List (Link Model))
  anyOf : Option (List (Link Model))
  oneOf : Option (List (Link Model))

namespace Model

/-- A model of a kind that says nothing yet. -/
def blank (name : String) (kind : Kind) : Model where
  name := name
  kind := kind
  source := .null
  location := none
  type := none
  subtype := .null
  array := none
  enum := .null
  default := none
  description := none
  validations := []
  extras := []
  dependencies := []
  fields := []
  allOf := none
  anyOf := none
  oneOf := none

end Model

namespace Link

/-- The name of the model at the other end. -/
def name : Link Model → String
  | .ref r => r.name
  | .model m => m.name

/-- The kind of what is at the other end. -/
def kind : Link Model → Kind
  | .ref r => r.kind
  | .model m => m.kind

end Link

/-- One response of an operation, for a status and a media type. -/
structure Response where
  name : String
  kind : Kind
  status : String
  type : Option String
  payload : Option Ref
  array : Option Bool
  headers : Dict String Ref
  description : Option String
  mediaType : Option String

/-- The request body of an operation for a media type. -/
structure RequestBody where
  name : String
  kind : Kind
  type : Option String
  payload : Option Ref
  array : Option Bool
  required : Bool
  description : Option String
  mediaType : Option String

/-- An operation: a verb on a path. -/
structure Method where
  name : String
  kind : Kind
  verb : Verb
  path : String
  operationId : Option String
  summary : Option String
  description : Option String
  tags : List String
  deprecated : Bool
  security : List (Dict String (List String))
  pathParams : List Ref
  queryParams : List Ref
  headerParams : List Ref
  pathObject : Option Ref
  queryObject : Option Ref
  headerObject : Option Ref
  responses : List Response
  requestBodies : List RequestBody

/-- The identifier of an operation. -/
def Method.id (m : Method) : String := s!"{m.verb.word} {m.path}"

/-- A path with the identifiers of its operations. -/
structure Path where
  name : String
  kind : Kind
  summary : Option String
  description : Option String
  methods : List String

/-- What is delivered to listeners. -/
inductive Entity where
  | method (m : Method)
  | path (p : Path)
  | model (m : Model)
  | ref (r : Ref)

/-- The text by which a log knows an entity. -/
def Entity.label : Entity → String
  | .method m => m.id
  | .path p => p.name
  | .model m => m.name
  | .ref r => r.name

end ApiGraph
