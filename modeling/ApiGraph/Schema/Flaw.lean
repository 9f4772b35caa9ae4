/-! What can be wrong with the structure of a description, each flaw with its wording. -/

namespace ApiGraph.Schema

/-- A structural flaw of a description. -/
inductive Flaw where
  | expectedMapping (name type : String)
  | expectedNode (type : String)
  | referenceNotText
  | arrayWithoutItems (model : String)
  | propertiesNotMapping (model : String)
  | propertyNotMapping (property model : String)
  | arrayPropertyWithoutItems (property : String)
  | combinatorNotList (key model : String)
  | unknownLocation (parameter location : String)
  | incompleteParameter
  | headersNotMapping
  | headerNotMapping (header : String)
  | arrayPayloadWithoutItems (payload : String)
  | responsesNotMapping
  | mediaNotMapping (mediaType : String)
  | contentNotMapping
  | distinctShapes (count : Nat)
  | componentsNotMapping
  | componentSectionNotMapping (name : String)
  | pathsNotMapping
  | operationNotMapping
  | cyclicDocument
  | hugeInteger
deriving DecidableEq

/-- The flaw in words. -/
def Flaw.message : Flaw → String
  | .expectedMapping name type => s!"Expected a mapping for '{name}', got {type}"
  | .expectedNode type => s!"Expected a mapping, got {type}"
  | .referenceNotText => "'$ref' must be a string"
  | .arrayWithoutItems model => s!"Array schema '{model}' has no 'items'"
  | .propertiesNotMapping model => s!"'properties' of '{model}' must be a mapping"
  | .propertyNotMapping property model => s!"Property '{property}' of '{model}' must be a mapping"
  | .arrayPropertyWithoutItems property => s!"Array property '{property}' has no 'items'"
  | .combinatorNotList key model => s!"'{key}' of '{model}' must be a list"
  | .unknownLocation parameter location =>
    s!"Parameter '{parameter}' has unknown location '{location}'"
  | .incompleteParameter => "Parameter must declare 'name' and 'in'"
  | .headersNotMapping => "'headers' must be a mapping"
  | .headerNotMapping header => s!"Header '{header}' must be a mapping"
  | .arrayPayloadWithoutItems payload => s!"Array payload '{payload}' has no 'items'"
  | .responsesNotMapping => "'responses' must be a mapping"
  | .mediaNotMapping mediaType => s!"Media type '{mediaType}' must be a mapping"
  | .contentNotMapping => "'content' must be a mapping"
  | .distinctShapes count =>
    s!"Request body declares {count} distinct content shapes; only one is supported"
  | .componentsNotMapping => "'components' must be a mapping"
  | .componentSectionNotMapping name => s!"'components.{name}' must be a mapping"
  | .pathsNotMapping => "'paths' must be a mapping"
  | .operationNotMapping => "Operation must be a mapping"
  | .cyclicDocument => "Document cannot be copied: Circular reference detected"
  | .hugeInteger =>
    "Document cannot be copied: Exceeds the limit (4300 digits) for integer string conversion; " ++
      "use sys.set_int_max_str_digits() to increase the limit"

end ApiGraph.Schema
