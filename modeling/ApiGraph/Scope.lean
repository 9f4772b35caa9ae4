import ApiGraph.Registry

/-! Where a resolution stands: the steps from the root of the document to the node at hand, for
messages and for the locations of models, and the key space into which models go. -/

namespace ApiGraph

/-- The place of a resolution. -/
structure Scope where
  crumbs : List String
  space : KeySpace

namespace Scope

/-- The root of a document. -/
def root : Scope := ⟨[], .named⟩

/-- The steps with points between them. -/
def location (s : Scope) : String := String.intercalate "." s.crumbs

/-- The location of a thing with a name: the place itself when its last step is that name. -/
def located (s : Scope) (name : String) : String :=
  if name.isEmpty || s.crumbs.getLast? == some name then s.location
  else if s.crumbs.isEmpty then name
  else s!"{s.location}.{name}"

/-- Some steps further down. -/
def down (s : Scope) (steps : List String) : Scope := { s with crumbs := s.crumbs ++ steps }

/-- Another place. -/
def relocated (s : Scope) (steps : List String) : Scope := { s with crumbs := steps }

/-- The same place with another key space. -/
def phase (s : Scope) (space : KeySpace) : Scope := { s with space := space }

end Scope

end ApiGraph
