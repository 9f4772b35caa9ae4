import ApiGraph.Entity.Basic

/-! Entities as JSON. Fields without a value are left out; a default that is set to null is
written after all other fields, and the identifier of an operation likewise. -/

namespace ApiGraph

namespace Entity

/-- A field with its value. -/
def entry (key : String) (v : Json) : List (String × Json) := [(key, v)]

/-- A field that is left out without a value. -/
def entry? (key : String) : Option Json → List (String × Json)
  | some v => [(key, v)]
  | none => []

/-- A field that is left out when its value is null. -/
def nonNullEntry (key : String) (v : Json) : List (String × Json) :=
  entry? key (v.nonNull.map Json.finite)

/-- A default in its place, unless it is set to null. -/
def defaultEntry (v : Option Json) : List (String × Json) :=
  entry? "default" ((v.bind Json.nonNull).map Json.finite)

/-- A default that is set to null. -/
def nullDefault : Option Json → List (String × Json)
  | some .null => [("default", .null)]
  | _ => []

/-- A text, if there is one. -/
def textEntry (key : String) (s : Option String) : List (String × Json) :=
  entry? key (s.map .str)

/-- A truth value, if there is one. -/
def flagEntry (key : String) (b : Option Bool) : List (String × Json) :=
  entry? key (b.map .bool)

/-- Free entries. -/
def freeEntry (key : String) (entries : Dict String Json) : List (String × Json) :=
  entry key (.obj (Json.finiteEntries entries))

end Entity

open Entity

/-- A handle as JSON. -/
def Ref.toJson (r : Ref) : Json :=
  .obj (entry "name" (.str r.name) ++ entry "kind" (.str r.kind.word))

/-- A list of handles. -/
def Ref.listJson (rs : List Ref) : Json := .arr (rs.map Ref.toJson)

/-- A member as JSON. -/
def Field.toJson (f : Field) : Json :=
  .obj (entry "name" (.str f.name) ++ entry "kind" (.str f.kind.word) ++
    textEntry "type" f.type ++ nonNullEntry "subtype" f.subtype ++ nonNullEntry "enum" f.enum ++
    flagEntry "array" f.array ++ entry "required" (.bool f.required) ++
    defaultEntry f.default ++ textEntry "description" f.description ++
    freeEntry "validations" f.validations ++ freeEntry "extras" f.extras ++
    nullDefault f.default)

mutual

/-- A model as JSON. -/
def Model.toJson : Model → Json
  | .mk name kind source location type subtype array enum default description validations extras
      dependencies fields allOf anyOf oneOf =>
    .obj (entry "name" (.str name) ++ entry "kind" (.str kind.word) ++
      nonNullEntry "sourceSchema" source ++ textEntry "location" location ++
      textEntry "type" type ++ nonNullEntry "subtype" subtype ++ flagEntry "array" array ++
      nonNullEntry "enum" enum ++ defaultEntry default ++ textEntry "description" description ++
      freeEntry "validations" validations ++ freeEntry "extras" extras ++
      entry "dependencies" (.arr (linksJson dependencies)) ++
      entry "fields" (.arr (fields.map Field.toJson)) ++ branchEntry "allOf" allOf ++
      branchEntry "anyOf" anyOf ++ branchEntry "oneOf" oneOf ++ nullDefault default)

/-- The branches of a combination, if there is one. -/
def branchEntry (key : String) : Option (List (Link Model)) → List (String × Json)
  | some links => [(key, .arr (linksJson links))]
  | none => []

/-- Links as JSON. -/
def linksJson : List (Link Model) → List Json
  | [] => []
  | link :: rest => linkJson link :: linksJson rest

/-- A link as JSON. -/
def linkJson : Link Model → Json
  | .ref r => r.toJson
  | .model m => m.toJson

end

/-- A response as JSON. -/
def Response.toJson (r : Response) : Json :=
  .obj (entry "name" (.str r.name) ++ entry "kind" (.str r.kind.word) ++
    entry "status" (.str r.status) ++ textEntry "type" r.type ++
    entry? "payload" (r.payload.map Ref.toJson) ++ flagEntry "array" r.array ++
    entry "headers" (.obj (r.headers.map fun p => (p.1, p.2.toJson))) ++
    textEntry "description" r.description ++ textEntry "contentType" r.mediaType)

/-- A request body as JSON. -/
def RequestBody.toJson (b : RequestBody) : Json :=
  .obj (entry "name" (.str b.name) ++ entry "kind" (.str b.kind.word) ++
    textEntry "type" b.type ++ entry? "payload" (b.payload.map Ref.toJson) ++
    flagEntry "array" b.array ++ entry "required" (.bool b.required) ++
    textEntry "description" b.description ++ textEntry "contentType" b.mediaType)

/-- One security requirement as JSON. -/
def requirementJson (requirement : Dict String (List String)) : Json :=
  .obj (requirement.map fun p => (p.1, .arr (p.2.map .str)))

/-- An operation as JSON. -/
def Method.toJson (m : Method) : Json :=
  .obj (entry "name" (.str m.name) ++ entry "kind" (.str m.kind.word) ++
    entry "verb" (.str m.verb.word) ++ entry "path" (.str m.path) ++
    textEntry "operationId" m.operationId ++ textEntry "summary" m.summary ++
    textEntry "description" m.description ++ entry "tags" (.arr (m.tags.map .str)) ++
    entry "deprecated" (.bool m.deprecated) ++
    entry "security" (.arr (m.security.map requirementJson)) ++
    entry "pathParams" (Ref.listJson m.pathParams) ++
    entry "queryParams" (Ref.listJson m.queryParams) ++
    entry "headerParams" (Ref.listJson m.headerParams) ++
    entry? "pathObject" (m.pathObject.map Ref.toJson) ++
    entry? "queryObject" (m.queryObject.map Ref.toJson) ++
    entry? "headerObject" (m.headerObject.map Ref.toJson) ++
    entry "responses" (.arr (m.responses.map Response.toJson)) ++
    entry "requestBodies" (.arr (m.requestBodies.map RequestBody.toJson)) ++
    entry "id" (.str m.id))

/-- A path as JSON. -/
def Path.toJson (p : Path) : Json :=
  .obj (entry "name" (.str p.name) ++ entry "kind" (.str p.kind.word) ++
    textEntry "summary" p.summary ++ textEntry "description" p.description ++
    entry "methods" (.arr (p.methods.map .str)))

/-- An entity as JSON. -/
def Entity.toJson : Entity → Json
  | .method m => m.toJson
  | .path p => p.toJson
  | .model m => m.toJson
  | .ref r => r.toJson

end ApiGraph
