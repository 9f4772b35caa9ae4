import ApiGraph.Resolve.Reference
import ApiGraph.Schema.Keyword

/-! Schemas. The models of nested schemas are embedded in their owner and not registered, but
their names are given away. What any part of a schema depends on is passed on to the owner, in
the order in which it is met. -/

namespace ApiGraph

open Resolving Schema

namespace Schema

/-- The strings among the items of a list of required members. An item that is a list or an
object cannot be the name of a member. -/
def requiredNames (node : Json) : Resolving (List String) :=
  match node.get "required" with
  | .arr items =>
    if items.any (fun v => match v with | .arr _ | .obj _ => true | _ => false) then
      fail (.misuse .wrongType)
    else pure (items.filterMap Json.text?)
  | _ => pure []

/-- Marks null as allowed. -/
def allowNull (nullable : Bool) (validations : Dict String Json) : Dict String Json :=
  if nullable then Dict.put validations "nullable" (.bool true) else validations

/-- The model that a schema starts from. -/
def outline (site : Site) (node : Json) : Resolving Model := do
  let description ← fit (descriptionOf node)
  let k := keywords node
  return { Model.blank site.name .schema with
    source := node
    location := some (site.scope.located site.name)
    default := node.get? "default"
    description := description
    validations := allowNull (declaredType node).2 k.validations
    extras := k.extras }

/-- Resolves a node inside a schema under the first free variant of a name. -/
def resolveMember (self : Resolver) (scope : Scope) (name : String) (required : List String)
    (node : Json) : Resolving Outcome := do
  let out ← self ⟨scope, ← freeName name, required, false, none⟩ node
  match out.result with
  | .model m => claim m.name
  | .ref _ => pure ()
  return out

/-- An array schema takes over a primitive item type and depends on any other. -/
def resolveArray (self : Resolver) (site : Site) (node : Json) (m : Model) :
    Resolving (Model × List (Link Model)) := do
  match (node.get "items").nonNull with
  | none => malformed (.arrayWithoutItems m.name) (m.location.getD "")
  | some items =>
    let name ← freeName s!"{m.name}Items"
    let out ← self ⟨site.scope.down ["items"], name, [], false, none⟩ items
    let depends := ({ m with array := some true, type := some out.result.name },
      out.needs ++ [out.result])
    match out.result with
    | .ref _ => return depends
    | .model item =>
      if isPrimitiveType item.type then
        let enum := if item.enum.isNull then m.enum else item.enum
        return ({ m with
          array := some true, type := item.type, subtype := item.subtype, enum := enum },
          out.needs)
      else
        claim item.name
        return depends

/-- A map schema depends on the type of its values. -/
def resolveMapValues (self : Resolver) (site : Site) (node : Json) (m : Model) :
    Resolving (Model × List (Link Model)) := do
  match node.get "additionalProperties" with
  | .bool true =>
    return ({ m with extras := Dict.put m.extras "additionalProperties" (.bool true) }, [])
  | .obj entries =>
    let out ← resolveMember self (site.scope.down ["additionalProperties"])
      s!"{site.name}Extras" [] (.obj entries)
    return ({ m with
      extras := Dict.put m.extras "additionalProperties" (.str out.result.name) },
      out.needs ++ [out.result])
  | _ => return (m, [])

/-- A schema of a type without parts, or of no type. -/
def resolvePlain (node : Json) (m : Model) : Model :=
  match (declaredType node).1 with
  | none => m
  | some type =>
    { m with
      type := if type = "object" then m.type else some type
      subtype := node.get "format"
      enum := if node.has "enum" then node.get "enum" else m.enum }

/-- The field that a property starts from. -/
def outlineField (name : String) (prop : Json) : Resolving Field := do
  let (subtype, description) ← fit ((fun a b => (a, b)) <$>
    ((match prop.get "format" with
      | .null => .fits .null
      | .str s => .fits (.str s)
      | _ => .refuse .text : Shape.Checked Json).under (.key "subtype")) <*> descriptionOf prop)
  return {
    name := name
    kind := .schema
    type := (declaredType prop).1
    subtype := subtype
    enum := .null
    array := none
    required := false
    default := prop.get? "default"
    description := description
    validations := []
    extras := [] }

/-- The type of a property: the target of a reference, a primitive type, or a model. -/
def resolveFieldType (document : Json) (self : Resolver) (scope : Scope) (parent : String)
    (prop : Json) (f : Field) : Resolving (Field × List (Link Model)) := do
  let isArray := f.type = some "array"
  let items := prop.get "items"
  if prop.has "$ref" then
    let ref ← resolveReference document self scope prop
    return ({ f with type := some ref.name, subtype := .str "object", kind := ref.kind },
      [.ref ref])
  else if isArray && isPrimitive items then
    return ({ f with
      type := (declaredType items).1
      subtype := items.get "format"
      enum := if items.has "enum" && !prop.has "enum" then items.get "enum" else f.enum }, [])
  else if isArray || f.type = some "object" || f.type.isNone then
    match if isArray then items.nonNull else some prop with
    | none => malformed (.arrayPropertyWithoutItems f.name) scope.location
    | some target =>
      let name := String.ofList (Naming.nested parent.toList f.name.toList)
      let out ← resolveMember self scope name [] target
      return ({ f with
        type := some out.result.name, kind := out.result.kind, subtype := .str "object" },
        out.needs ++ [out.result])
  else return (f, [])

/-- A property as a field, with what it depends on. -/
def resolveField (document : Json) (self : Resolver) (scope : Scope) (parent : String)
    (required : List String) (name : String) (prop : Json) :
    Resolving (Field × List (Link Model)) := do
  if !prop.isObject then malformed (.propertyNotMapping name parent) scope.location
  let declared := declaredType prop
  let start ← outlineField name prop
  let (f, needs) ← resolveFieldType document self scope parent prop start
  let k := if prop.has "$ref" then ⟨[], []⟩ else keywords prop
  let validations := allowNull declared.2 k.validations
  let isRequired := required.contains name
  return ({ f with
    array := if declared.1 = some "array" then some true else f.array
    enum := if prop.has "enum" then prop.get "enum" else f.enum
    required := isRequired
    validations :=
      if isRequired then Dict.put validations "required" (.bool true) else validations
    extras := k.extras }, needs)

/-- The properties as fields, in order. -/
def resolveFields (document : Json) (self : Resolver) (scope : Scope) (parent : String)
    (required : List String) :
    List (String × Json) → Resolving (List Field × List (Link Model))
  | [] => pure ([], [])
  | (name, prop) :: rest => do
    let (f, needs) ← resolveField document self (scope.down ["properties", name]) parent
      required name prop
    let (fs, more) ← resolveFields document self scope parent required rest
    return (f :: fs, needs ++ more)

/-- The properties of a schema. -/
def resolveProperties (document : Json) (self : Resolver) (site : Site) (required : List String)
    (node : Json) (m : Model) : Resolving (List Field × List (Link Model)) := do
  let properties := node.get "properties"
  if !properties.truthy then return ([], [])
  match properties with
  | .obj entries => resolveFields document self site.scope m.name required entries
  | _ => malformed (.propertiesNotMapping m.name) (m.location.getD "")

/-- The branches of a combination from a number on. Its models are embedded in the branches, and
only its references are passed on. -/
def resolveBranches (self : Resolver) (scope : Scope) (key name : String)
    (required : List String) :
    Nat → List Json → Resolving (List (Link Model) × List (Link Model))
  | _, [] => pure ([], [])
  | i, node :: rest => do
    let out ← resolveMember self (scope.down [key, toString i]) s!"{name}{i}" required node
    let needs :=
      match out.result with
      | .ref _ => out.needs ++ [out.result]
      | .model _ => out.needs
    let (branches, more) ← resolveBranches self scope key name required (i + 1) rest
    return (out.result :: branches, needs ++ more)

/-- One combination of a schema. -/
def resolveCombinator (self : Resolver) (site : Site) (required : List String) (node : Json)
    (m : Model) (key label : String) :
    Resolving (Option (List (Link Model)) × List (Link Model)) := do
  match node.get key with
  | .null => return (none, [])
  | .arr items =>
    let (branches, needs) ← resolveBranches self site.scope key s!"{m.name}{label}" required 0
      items
    return (some branches, needs)
  | _ => malformed (.combinatorNotList key m.name) (m.location.getD "")

/-- A schema with properties or combinations. -/
def resolveComposite (document : Json) (self : Resolver) (site : Site) (node : Json) (m : Model) :
    Resolving (Model × List (Link Model)) := do
  let required := site.required ++ (← requiredNames node)
  let (fields, needs) ← resolveProperties document self site required node m
  let (allOf, allNeeds) ← resolveCombinator self site required node m "allOf" "AllOf"
  let (anyOf, anyNeeds) ← resolveCombinator self site required node m "anyOf" "AnyOf"
  let (oneOf, oneNeeds) ← resolveCombinator self site required node m "oneOf" "OneOf"
  return ({ m with fields := fields, allOf := allOf, anyOf := anyOf, oneOf := oneOf },
    needs ++ allNeeds ++ anyNeeds ++ oneNeeds)

/-- Whether a schema has properties or combinations. -/
def isComposite (node : Json) : Bool :=
  node.has "properties" || combinatorKeys.any node.has

/-- The parts of a schema. -/
def resolveParts (document : Json) (self : Resolver) (site : Site) (node : Json) (m : Model) :
    Resolving (Model × List (Link Model)) := do
  if (declaredType node).1 = some "array" then resolveArray self site node m
  else
    let (m, needs) ← resolveMapValues self site node m
    if isComposite node then
      let (m, more) ← resolveComposite document self site node m
      return (m, needs ++ more)
    else return (resolvePlain node m, needs)

/-- A schema as a model. While operations are resolved, a node whose content is registered
already answers with a handle. -/
def resolve (document : Json) (self : Resolver) (site : Site) (node : Json) :
    Resolving Outcome := do
  let r ← registry
  match (if site.scope.space = .structural then r.findStructural node else none) with
  | some ref => return ⟨.ref ref, []⟩
  | none =>
    let (m, needs) ← resolveParts document self site node (← outline site node)
    if site.owner then return ⟨.model { m with dependencies := needs }, []⟩
    else return ⟨.model m, needs⟩

end Schema

end ApiGraph
