import ApiGraph.Json.Basic

/-! The keys of a schema. Validations constrain values; structural keys say what a value is made
of; all other keys are extras and are kept as they are. -/

namespace ApiGraph.Schema

/-- The keys that constrain values. -/
def validationKeys : List String :=
  ["multipleOf", "maximum", "exclusiveMaximum", "minimum", "exclusiveMinimum", "maxLength",
    "minLength", "pattern", "maxItems", "minItems", "uniqueItems", "maxContains", "minContains",
    "maxProperties", "minProperties", "required", "dependentRequired", "nullable"]

/-- The keys that say what a value is made of. -/
def structuralKeys : List String :=
  ["type", "format", "schema", "items", "$ref", "properties", "default", "enum", "description",
    "additionalProperties", "allOf", "anyOf", "oneOf"]

/-- The two kinds of keys that are kept beside the structure of a schema. -/
structure Keywords where
  validations : Dict String Json
  extras : Dict String Json

/-- The word for whether null is allowed, which a vendor key may say too. -/
def nullableOf (entries : Dict String Json) : Dict String Json :=
  match entries.lookup "x-nullable", entries.lookup "nullable" with
  | some v, _ => [("nullable", v)]
  | none, some v => [("nullable", v)]
  | none, none => []

/-- The keywords after one more entry of the schema. -/
def Keywords.add (k : Keywords) (entry : String × Json) : Keywords :=
  if structuralKeys.contains entry.1 then k
  else if validationKeys.contains entry.1 then
    { k with validations := Dict.put k.validations entry.1 entry.2 }
  else { k with extras := Dict.put k.extras entry.1 entry.2 }

/-- The validations and extras of a node; a node that is no object has none. -/
def keywords : Json → Keywords
  | .obj entries => entries.foldl Keywords.add ⟨nullableOf entries, []⟩
  | _ => ⟨[], []⟩

end ApiGraph.Schema
