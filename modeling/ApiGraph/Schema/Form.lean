import ApiGraph.Json.Shown

/-! What a node of a description is, told from its keys, and the type that a schema declares. -/

namespace ApiGraph.Schema

/-- The forms that a node can have. -/
inductive Form where
  | reference
  | securityScheme
  | parameter
  | response
  | requestBody
  | schema
deriving DecidableEq

/-- The word for a form. -/
def Form.word : Form → String
  | .reference => "reference"
  | .securityScheme => "security_scheme"
  | .parameter => "parameter"
  | .response => "response"
  | .requestBody => "request_body"
  | .schema => "schema"

/-- All forms. -/
def Form.all : List Form :=
  [.reference, .securityScheme, .parameter, .response, .requestBody, .schema]

/-- The form that a word names. -/
def Form.ofWord? (w : String) : Option Form := Form.all.find? (·.word == w)

/-- The types of values without parts. -/
def primitiveTypes : List String := ["integer", "number", "string", "boolean", "null"]

/-- The types that only security schemes have. -/
def securityTypes : List String := ["http", "apiKey", "oauth2", "openIdConnect"]

/-- The keys under which a schema combines others. -/
def combinatorKeys : List String := ["allOf", "anyOf", "oneOf"]

/-- The form of an object. A response or a request body has no keys of its own, so that the
place where it stands has to tell. -/
def formOf (node : Json) (hint : Option Form) : Form :=
  if node.has "$ref" then .reference
  else if (node.get "type").text?.any securityTypes.contains then .securityScheme
  else if node.has "name" && node.has "in" then .parameter
  else
    match hint with
    | some .response => .response
    | some .requestBody => .requestBody
    | _ => .schema

/-- Whether a value is the word for the type of null. -/
def isNullWord (v : Json) : Bool := v.text? == some "null"

/-- The declared type and whether null is one of several declared types. -/
def declaredType (node : Json) : Option String × Bool :=
  match node.get "type" with
  | .arr types =>
    let nullable := types.any isNullWord
    match types.find? (!isNullWord ·) with
    | some t => (some t.shown, nullable)
    | none => (if nullable then some "null" else none, nullable)
  | .str t => (some t, false)
  | _ => (none, false)

/-- Whether a type has no parts. -/
def isPrimitiveType (t : Option String) : Bool := t.any primitiveTypes.contains

/-- Whether a node is a schema, and no reference, with a primitive type. -/
def isPrimitive (node : Json) : Bool :=
  node.isObject && !node.has "$ref" && isPrimitiveType (declaredType node).1

end ApiGraph.Schema
