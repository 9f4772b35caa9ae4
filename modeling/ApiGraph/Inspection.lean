import ApiGraph.Graph
import ApiGraph.Text.Words

/-! Tables of what a description resolves to: its models, its operations and its paths. A dash
stands where there is nothing to show. -/

namespace ApiGraph

/-- What is shown of a graph. -/
inductive View where
  | models
  | methods
  | paths
deriving DecidableEq

namespace View

/-- The word for a view. -/
def word : View → String
  | .models => "models"
  | .methods => "methods"
  | .paths => "paths"

/-- The view with a word. -/
def ofWord? (w : String) : Option View := [models, methods, paths].find? fun v => v.word == w

/-- What is said when there is nothing to show. -/
def emptyMessage : View → String
  | .models => "No models resolved from this document."
  | .methods => "No operations defined in this document."
  | .paths => "No paths defined in this document."

/-- The headers of the table. -/
def headers : View → List String
  | .models => ["Model", "Kind", "Type", "Fields", "Dependencies"]
  | .methods => ["Method", "Verb", "Path", "Params", "Body", "Responses"]
  | .paths => ["Path", "Verbs", "Summary"]

end View

namespace Inspection

/-- A text, or a dash for an empty one. -/
def orDash (s : String) : String := if s.isEmpty then "-" else s

/-- A text that may be missing, or a dash. -/
def optional (s : Option String) : String := orDash (s.getD "")

/-- Texts with commas between them, or a dash. -/
def listed (texts : List String) : String := orDash (String.intercalate ", " texts)

/-- The texts without repetitions, each at its first place. -/
def distinct (texts : List String) : List String :=
  Dict.keys (Dict.ofEntries (texts.map fun t => (t, ())))

/-- The type of a model. -/
def typeLabel (m : Model) : String :=
  if m.array = some true then optional m.type ++ "[]" else optional m.type

/-- The row of a model. -/
def modelRow (name : String) (m : Model) : List String :=
  [name, m.kind.word, typeLabel m, toString m.fields.length, toString m.dependencies.length]

/-- A verb in capital letters. -/
def verbLabel (v : Verb) : String := String.ofList (v.word.toList.map Char.toUpper)

/-- What a response answers with. -/
def responseLabel (r : Response) : String :=
  let target :=
    match r.payload with
    | some p => p.name
    | none => r.type.getD ""
  if target.isEmpty then r.status else r.status ++ ":" ++ target

/-- What a request body holds. -/
def bodyLabel (b : RequestBody) : String :=
  match b.payload with
  | some p => p.name
  | none => optional b.type

/-- The row of an operation. -/
def methodRow (m : Method) : List String :=
  let params := m.pathParams.length + m.queryParams.length + m.headerParams.length
  let bodies := (distinct (m.requestBodies.map bodyLabel)).mergeSort fun a b => a ≤ b
  [m.name, verbLabel m.verb, m.path, toString params, listed bodies,
    listed (distinct (m.responses.map responseLabel))]

/-- The row of a path. Each of its operations has to be known. -/
def pathRow (methods : Dict String Method) (p : Path) : Except Failure (List String) := do
  let verbs ← p.methods.mapM fun id =>
    match methods.lookup id with
    | some m => .ok (verbLabel m.verb)
    | none => .error (.misuse .missingKey)
  return [p.name, String.intercalate " " verbs, optional p.summary]

/-- The rows of a view of a graph. -/
def rows (g : Graph τ) : View → Except Failure (List (List String))
  | .models => .ok (g.registry.models.map fun p => modelRow p.1 p.2)
  | .methods => .ok ((Dict.values g.methods).map methodRow)
  | .paths => (Dict.values g.paths).mapM (pathRow g.methods)

end Inspection

end ApiGraph
