import ApiGraph.Resolve.Header

/-! The resolution of a node of any form. Forms refer to each other only through the resolver
that they are given; the recursion is closed here, with a bound on its depth. -/

namespace ApiGraph

open Resolving

/-- The name of a security scheme: the given one, or one after its type. -/
def securitySchemeName (given : String) (type : Json) : Resolving String :=
  if !given.isEmpty then pure given
  else
    match type with
    | .str t => pure ("Auth" ++ String.ofList (Naming.upperFirst t.toList))
    | .arr _ => fail (.misuse .noMember)
    | _ => fail (.misuse .wrongType)

/-- A security scheme as a model. -/
def resolveSecurityScheme (scope : Scope) (given : String) (node : Json) : Resolving Model := do
  match node.get? "type" with
  | none => fail (.misuse (if node.isObject then .missingKey else .wrongType))
  | some type =>
    let name ← securitySchemeName given type
    let (type, description) ← fit ((fun a b => (a, b)) <$>
      (Shape.optional Shape.text type).under (.key "type") <*> descriptionOf node)
    return { Model.blank name .securityScheme with
      source := node
      location := some (scope.located name)
      type := type
      description := description }

/-- A model that keeps its dependencies to itself. -/
def Outcome.own (m : Model) : Outcome := ⟨.model m, []⟩

/-- Resolves a node by its form. -/
def resolveForm (document : Json) (self : Resolver) : Resolver := fun site node => do
  if !node.isObject then
    malformed (.expectedMapping site.name node.typeName) (site.scope.located site.name)
  match Schema.formOf node site.hint with
  | .reference => return ⟨.ref (← resolveReference document self site.scope node), []⟩
  | .securityScheme => return .own (← resolveSecurityScheme site.scope site.name node)
  | .parameter => return .own (← Parameter.resolve self site.scope site.name node)
  | .response =>
    return .own (← Header.resolveHolder document self site.scope .response site.name node)
  | .requestBody =>
    return .own (← Header.resolveHolder document self site.scope .requestBody site.name node)
  | .schema => Schema.resolve document self site node

/-- Resolves a node with a bound on the depth of the recursion. -/
def resolveWithin (document : Json) : Nat → Resolver
  | 0, _, _ => fail (.misuse .endless)
  | depth + 1, site, node => resolveForm document (resolveWithin document depth) site node

/-- A bound on the depth of resolution that is never reached: between two references that are
followed the nodes get smaller, and no reference is followed twice. -/
def depthBound (document node : Json) : Nat :=
  (document.size + node.size + 2) * (document.size + node.size + 2)

/-- Resolves a node of a document. -/
def resolveNode (document : Json) : Resolver := fun site node =>
  resolveWithin document (depthBound document node) site node

end ApiGraph
