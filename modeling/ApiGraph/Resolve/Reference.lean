import ApiGraph.Naming
import ApiGraph.Resolve.Basic
import ApiGraph.Text.Alnum

/-! References. One to a declared component is answered by the registry at once, even while the
component is still being resolved, so that cycles end. Any other reference inside the document
is followed once and registered under its text; one that leads out stays as it is. -/

namespace ApiGraph

open Resolving

/-- The letters, digits and underscores of a segment as a name. -/
def segmentName (segment : String) : List Char :=
  let spaced := segment.toList.map fun c => if c == '/' || c == '.' then ' ' else c
  (Naming.pascalCase spaced).filter fun c => Text.isAlnum c || c == '_'

/-- Whether a name can stand alone: it is not empty and begins with no digit. -/
def isFreestanding (name : List Char) : Bool := name.head?.any (!Text.isDigit ·)

/-- The name for the target of a reference, after the last of its segments that makes one. -/
def pointerName (ref : String) : String :=
  let segments := (Pointer.segments ref).filter fun s => s ≠ "schema" ∧ s ≠ "content"
  match (segments.reverse.map segmentName).find? isFreestanding with
  | some name => String.ofList name
  | none => "Ref"

/-- Follows a reference inside the document that is not registered yet. -/
def followReference (document : Json) (self : Resolver) (scope : Scope) (ref : String) :
    Resolving Ref := do
  match Pointer.resolve document ref with
  | none => fail (.missingReference ref scope.location)
  | some target =>
    let (reserved, r) := (← registry).reserve ref (pointerName ref)
    setRegistry r
    let site := Site.ofOwner (scope.relocated (Pointer.segments ref)) reserved.name
    let parsed ← self site target
    match parsed.result with
    | .ref found =>
      if !found.isRemote then setRegistry ((← registry).redirect ref found.name)
      return found
    | .model _ =>
      let resolved ← assert target parsed.result (some ref) .named scope.location
      return resolved.ref

/-- The handle for a node that is a reference. -/
def resolveReference (document : Json) (self : Resolver) (scope : Scope) (node : Json) :
    Resolving Ref := do
  match node.get? "$ref" with
  | some (.str ref) =>
    if !Pointer.isLocal ref then return .remote ref
    match (← registry).lookupRef ref with
    | some known => return known
    | none => followReference document self scope ref
  | some _ => malformed .referenceNotText scope.location
  | none => fail (.misuse (if node.isObject then .missingKey else .wrongType))

/-- The node that a registered component was resolved from. -/
def registeredNode (registry : Registry) (ref : String) : Option Json := do
  let m ← (← registry.resolve ref).model
  if m.source.isObject then some m.source else none

/-- The node that a chain of references leads to, or the node itself. A registered component
answers with the node it was resolved from; the fuel bounds the chain. -/
def followChain (document : Json) (registry : Registry) (location : String) :
    Nat → Json → Except Failure Json
  | 0, _ => .error (.misuse .endless)
  | fuel + 1, node =>
    if !node.isObject then .error (.malformed (.expectedNode node.typeName) location)
    else
      match node.get? "$ref" with
      | none => .ok node
      | some (.str ref) =>
        if !Pointer.isLocal ref then .error (.missingReference ref location)
        else
          match registeredNode registry ref with
          | some found => .ok found
          | none =>
            match Pointer.resolve document ref with
            | some target => followChain document registry location fuel target
            | none => .error (.missingReference ref location)
      | some v => .error (.missingReference v.shown location)

/-- The node that a node of an operation stands for. -/
def dereference (document : Json) (scope : Scope) (node : Json) : Resolving Json := do
  lift (followChain document (← registry) scope.location (document.size + 2) node)

end ApiGraph
