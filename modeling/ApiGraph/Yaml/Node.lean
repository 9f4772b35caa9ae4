import ApiGraph.Yaml.Tag

/-! The nodes of a document. A node that is named can stand in several places, even inside itself,
so nodes hold the places of other nodes in an array of all of them. -/

namespace ApiGraph.Yaml

/-- A node. -/
inductive Node where
  | scalar (tag : Tag) (text : String)
  | list (tag : Tag) (items : List Nat)
  | map (tag : Tag) (entries : List (Nat × Nat))

/-- The type of a node. -/
def Node.tag : Node → Tag
  | .scalar t _ | .list t _ | .map t _ => t

/-- Whether a node is a single text. -/
def Node.isScalar : Node → Bool
  | .scalar .. => true
  | _ => false

/-- Whether a node is a list of nodes. -/
def Node.isList : Node → Bool
  | .list .. => true
  | _ => false

/-- The nodes of a document, and the one that makes it up; a text of comments has none. -/
structure Document where
  nodes : Array Node
  root : Option Nat

end ApiGraph.Yaml
