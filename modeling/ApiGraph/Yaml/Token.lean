import ApiGraph.Yaml.Flaw

/-! The tokens of a document. Indentation has become explicit: a block of items or entries stands
between a mark that opens it and a mark that closes it, and every key and value is marked. -/

namespace ApiGraph.Yaml

/-- A line before a document that says how to read it. -/
inductive Directive where
  | version (major : Nat)
  | handle (name space : String)
  | other
deriving DecidableEq

/-- The name of a type as it is written: a handle that stands for a beginning, and the rest. -/
structure TagName where
  handle : Option String
  rest : String
deriving DecidableEq

/-- A token. -/
inductive Token where
  | directive (d : Directive)
  | documentStart
  | documentEnd
  | streamEnd
  | blockList
  | blockMap
  | blockEnd
  | flowList
  | flowListEnd
  | flowMap
  | flowMapEnd
  | item
  | comma
  | key
  | value
  | alias (name : String)
  | anchor (name : String)
  | tag (name : TagName)
  | scalar (text : String) (plain : Bool)
  /-- Stands for the rest of a text that cannot be read on. -/
  | broken (flaw : Flaw)
deriving DecidableEq

end ApiGraph.Yaml
