import ApiGraph.Entity.Basic
import ApiGraph.Json.Shape

/-! Entities from JSON. A field may be under either of its two names, of which the first wins; a
mismatch reports the name under which the field was found. -/

namespace ApiGraph

open Shape

/-- A kind by its word. -/
def kindShape : Json → Checked Kind := choice Kind.ofWord?

/-- Free entries. -/
def freeShape : Json → Checked (Dict String Json) := dict any

/-- A field that may be missing or null. -/
def optionalField (names : List String) (read : Json → Checked α) (v : Json) :
    Checked (Option α) :=
  withDefault names none (optional read) v

/-- A list that may be missing. -/
def listField (names : List String) (read : Json → Checked α) (v : Json) : Checked (List α) :=
  withDefault names [] (list read) v

/-- A field of any shape, null when it is missing. -/
def anyField (names : List String) (v : Json) : Checked Json := withDefault names .null any v

/-- A value that is null or a list of any values. -/
def listOrNull : Json → Checked Json
  | .null => .fits .null
  | .arr items => .fits (.arr items)
  | _ => .refuse .list

/-- A value that is null or a string. -/
def textOrNull : Json → Checked Json
  | .null => .fits .null
  | .str s => .fits (.str s)
  | _ => .refuse .text

/-- A default is set when it is written, even as null. -/
def defaultField (v : Json) : Checked (Option Json) := .fits (v.get? "default")

/-- A handle. -/
def Ref.ofJson : Json → Checked Ref :=
  record fun v =>
    Ref.mk <$> mandatory ["name"] text v <*> withDefault ["kind"] .ref kindShape v

/-- A member of a model. -/
def Field.ofJson : Json → Checked Field :=
  record fun v =>
    Field.mk <$> mandatory ["name"] text v <*> withDefault ["kind"] .schema kindShape v <*>
      optionalField ["type"] text v <*> withDefault ["subtype"] .null textOrNull v <*>
      withDefault ["enum"] .null listOrNull v <*> optionalField ["array"] flag v <*>
      withDefault ["required"] false flag v <*> defaultField v <*>
      optionalField ["description"] text v <*> withDefault ["validations"] [] freeShape v <*>
      withDefault ["extras"] [] freeShape v

/-- Whether a value is meant as a handle rather than as a model. -/
def isRefJson (v : Json) : Bool :=
  match v.get "kind" with
  | .str w => w == Kind.ref.word || w == Kind.remoteRef.word
  | _ => false

/-- A link, given how models are read. A mismatch tells which of the two was expected. -/
def linkOfJson (readModel : Json → Checked Model) (v : Json) : Checked (Link Model) :=
  if isRefJson v then ((Ref.ofJson v).map .ref).under (.key "ref")
  else ((readModel v).map .model).under (.key "model")

/-- A model, with a bound on how deep models are embedded. -/
def Model.read : Nat → Json → Checked Model
  | 0, _ => .refuse .record
  | depth + 1, v =>
    let link := linkOfJson (Model.read depth)
    record
      (fun v =>
        Model.mk <$> mandatory ["name"] text v <*> withDefault ["kind"] .schema kindShape v <*>
          anyField ["sourceSchema", "source_schema"] v <*> optionalField ["location"] text v <*>
          optionalField ["type"] text v <*> withDefault ["subtype"] .null textOrNull v <*>
          optionalField ["array"] flag v <*> withDefault ["enum"] .null listOrNull v <*>
          defaultField v <*> optionalField ["description"] text v <*>
          withDefault ["validations"] [] freeShape v <*>
          withDefault ["extras"] [] freeShape v <*> listField ["dependencies"] link v <*>
          listField ["fields"] Field.ofJson v <*>
          optionalField ["allOf", "all_of"] (list link) v <*>
          optionalField ["anyOf", "any_of"] (list link) v <*>
          optionalField ["oneOf", "one_of"] (list link) v)
      v

/-- A model. -/
def Model.ofJson (v : Json) : Checked Model := Model.read (v.size + 1) v

/-- A response. -/
def Response.ofJson : Json → Checked Response :=
  record fun v =>
    Response.mk <$> mandatory ["name"] text v <*> withDefault ["kind"] .response kindShape v <*>
      mandatory ["status"] text v <*> optionalField ["type"] text v <*>
      optionalField ["payload"] Ref.ofJson v <*> optionalField ["array"] flag v <*>
      withDefault ["headers"] [] (dict Ref.ofJson) v <*> optionalField ["description"] text v <*>
      optionalField ["contentType", "content_type"] text v

/-- A request body. -/
def RequestBody.ofJson : Json → Checked RequestBody :=
  record fun v =>
    RequestBody.mk <$> mandatory ["name"] text v <*>
      withDefault ["kind"] .requestBody kindShape v <*> optionalField ["type"] text v <*>
      optionalField ["payload"] Ref.ofJson v <*> optionalField ["array"] flag v <*>
      withDefault ["required"] false flag v <*> optionalField ["description"] text v <*>
      optionalField ["contentType", "content_type"] text v

/-- The security requirements of an operation. -/
def requirementsShape : Json → Checked (List (Dict String (List String))) :=
  list (dict (list text))

/-- An operation. -/
def Method.ofJson : Json → Checked Method :=
  record fun v =>
    Method.mk <$> mandatory ["name"] text v <*> withDefault ["kind"] .method kindShape v <*>
      mandatory ["verb"] (choice Verb.ofWord?) v <*> mandatory ["path"] text v <*>
      optionalField ["operationId", "operation_id"] text v <*>
      optionalField ["summary"] text v <*> optionalField ["description"] text v <*>
      listField ["tags"] text v <*> withDefault ["deprecated"] false flag v <*>
      withDefault ["security"] [] requirementsShape v <*>
      listField ["pathParams", "path_params"] Ref.ofJson v <*>
      listField ["queryParams", "query_params"] Ref.ofJson v <*>
      listField ["headerParams", "header_params"] Ref.ofJson v <*>
      optionalField ["pathObject", "path_object"] Ref.ofJson v <*>
      optionalField ["queryObject", "query_object"] Ref.ofJson v <*>
      optionalField ["headerObject", "header_object"] Ref.ofJson v <*>
      listField ["responses"] Response.ofJson v <*>
      listField ["requestBodies", "request_bodies"] RequestBody.ofJson v

/-- A path. -/
def Path.ofJson : Json → Checked Path :=
  record fun v =>
    Path.mk <$> mandatory ["name"] text v <*> withDefault ["kind"] .path kindShape v <*>
      optionalField ["summary"] text v <*> optionalField ["description"] text v <*>
      listField ["methods"] text v

/-- The entity of a category: operations, paths, and models under all others. -/
def Entity.ofJson (category : Kind) (v : Json) : Checked Entity :=
  match category with
  | .method => (Method.ofJson v).map .method
  | .path => (Path.ofJson v).map .path
  | _ => (Model.ofJson v).map .model

end ApiGraph
