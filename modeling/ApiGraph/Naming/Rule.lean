import ApiGraph.Failure
import ApiGraph.Json.Shown
import ApiGraph.Naming
import ApiGraph.Pointer

/-! The rules for names as functions of any values. A rule has a number of operands; each of them
has to be a text, but for what the rule leaves open: empty values name nothing where a part of a
name may be missing, and any value can be shown where a name is only embedded. -/

namespace ApiGraph.Naming

/-- The rules for names. -/
inductive Rule where
  | camelCase
  | upperFirst
  | lastSegment
  | response
  | method
  | parameter
  | nested
  | component
deriving DecidableEq

/-- A name, or what is wrong with an operand. -/
abbrev Named := Except Misuse (List Char)

/-- The characters of a text; other values are misused as one. -/
def textOr (misuse : Misuse) : Json → Named
  | .str s => .ok s.toList
  | _ => .error misuse

/-- A rule applied to a part that may be missing. -/
def ofPart (rule : List Char → List Char) (v : Json) : Named :=
  if v.truthy then (textOr .wrongType v).map rule else .ok []

/-- The first character in upper case; a list has a first part that is no text. -/
def upperFirstOf : Json → Named
  | .str s => .ok (upperFirst s.toList)
  | .arr _ => .error .noMember
  | _ => .error .wrongType

/-- The name of a payload. The operands are looked at one after the other. -/
def responseOf (tag path verb mediaType status : Json) : Named := do
  let _ ← ofPart id tag
  let path ← textOr .noMember path
  let _ ← ofPart id verb
  let _ ← ofPart id mediaType
  let _ ← ofPart id status
  let part (v : Json) : List Char := (v.text?.getD "").toList
  return response (part tag) path (part verb) (part mediaType) (part status)

/-- The name of an operation. Its verb and path matter only when it has no identifier. -/
def methodOf (operationId verb path : Json) : Named :=
  if operationId.truthy then do return method (← textOr .wrongType operationId) [] []
  else do
    let path ← textOr .noMember path
    return method [] (← textOr .wrongType verb) path

namespace Rule

/-- What a rule makes of its operands; it has as many of them as it can tell apart, and the last
ones of some rules can be left out. -/
def apply : Rule → List Json → Named
  | .camelCase, [v] => ofPart Naming.camelCase v
  | .camelCase, [v, capital] => ofPart (if capital.truthy then pascalCase else Naming.camelCase) v
  | .upperFirst, [v] => upperFirstOf v
  | .lastSegment, [path] => (textOr .noMember path).map Naming.lastSegment
  | .response, [tag, path, verb, mediaType] => responseOf tag path verb mediaType .null
  | .response, [tag, path, verb, mediaType, status] => responseOf tag path verb mediaType status
  | .method, [operationId, verb, path] => methodOf operationId verb path
  | .parameter, [location, name] => .ok (Naming.parameter location.shown.toList name.shown.toList)
  | .nested, [parent, member] => do
    let _ ← upperFirstOf member
    return Naming.nested (← textOr .wrongType parent) (member.text?.getD "").toList
  | .component, [sec, name] => do
    let name ← textOr .noMember name
    return (Pointer.component sec.shown (String.ofList name)).toList
  | _, _ => .error .wrongType

theorem apply_camelCase_text (s : String) (h : s ≠ "") :
    apply .camelCase [.str s] = .ok (Naming.camelCase s.toList) := by
  simp [apply, ofPart, textOr, Json.truthy, h, Except.map]

theorem apply_parameter_text (location name : String) :
    apply .parameter [.str location, .str name] = .ok (Naming.parameter location.toList name.toList) :=
  rfl

end Rule

end ApiGraph.Naming
