/-! The vocabularies of entities: kinds, which are also the categories under which entities are
delivered, verbs of operations in the order in which they are visited, and places of
parameters. -/

namespace ApiGraph

/-- What an entity is. No entity has the kind `model`: it is the category of all models. -/
inductive Kind where
  | ref
  | remoteRef
  | path
  | method
  | schema
  | model
  | parameter
  | queryParameter
  | headerParameter
  | pathParameter
  | securityScheme
  | response
  | requestBody
  | primitive
  | methodParam
deriving DecidableEq

namespace Kind

/-- The word for a kind. -/
def word : Kind → String
  | .ref => "REF"
  | .remoteRef => "REMOTE_REF"
  | .path => "PATH"
  | .method => "METHOD"
  | .schema => "SCHEMA"
  | .model => "MODEL"
  | .parameter => "PARAMETER"
  | .queryParameter => "QUERY_PARAMETER"
  | .headerParameter => "HEADER_PARAMETER"
  | .pathParameter => "PATH_PARAMETER"
  | .securityScheme => "SECURITY_SCHEME"
  | .response => "RESPONSE"
  | .requestBody => "REQUEST_BODY"
  | .primitive => "PRIMITIVE"
  | .methodParam => "METHOD_PARAM"

/-- All kinds. -/
def all : List Kind :=
  [.ref, .remoteRef, .path, .method, .schema, .model, .parameter, .queryParameter,
    .headerParameter, .pathParameter, .securityScheme, .response, .requestBody, .primitive,
    .methodParam]

/-- The kind that a word names. -/
def ofWord? (w : String) : Option Kind := all.find? (·.word == w)

/-- Whether an entity of the kind is a reference. -/
def isRef (k : Kind) : Bool := k == .ref || k == .remoteRef

theorem ofWord?_word (k : Kind) : ofWord? k.word = some k := by
  cases k <;> decide

end Kind

/-- The verb of an operation. -/
inductive Verb where
  | get
  | put
  | post
  | delete
  | options
  | head
  | patch
  | trace
deriving DecidableEq

namespace Verb

/-- The word for a verb. -/
def word : Verb → String
  | .get => "get"
  | .put => "put"
  | .post => "post"
  | .delete => "delete"
  | .options => "options"
  | .head => "head"
  | .patch => "patch"
  | .trace => "trace"

/-- All verbs, in the order in which the operations of a path are visited. -/
def all : List Verb := [.get, .put, .post, .delete, .options, .head, .patch, .trace]

/-- The verb that a word names. -/
def ofWord? (w : String) : Option Verb := all.find? (·.word == w)

theorem ofWord?_word (v : Verb) : ofWord? v.word = some v := by
  cases v <;> decide

end Verb

/-- Where a parameter stands in a request. -/
inductive ParameterPlace where
  | query
  | header
  | path
  | cookie
deriving DecidableEq

namespace ParameterPlace

/-- The word for a place. -/
def word : ParameterPlace → String
  | .query => "query"
  | .header => "header"
  | .path => "path"
  | .cookie => "cookie"

/-- The place that a word names. -/
def ofWord? (w : String) : Option ParameterPlace :=
  [.query, .header, .path, .cookie].find? (·.word == w)

/-- The kind of the models of parameters at a place. -/
def kind : ParameterPlace → Kind
  | .query => .queryParameter
  | .header => .headerParameter
  | .path => .pathParameter
  | .cookie => .parameter

end ParameterPlace

end ApiGraph
