import ApiGraph.Failure

/-! What is wrong with a text that holds no document, or with a value in it. -/

namespace ApiGraph.Yaml

/-- Why a text cannot be read. -/
inductive Flaw where
  /-- The text breaks a rule of the notation. -/
  | malformed
  /-- A value is none of the type that it is marked with. -/
  | value (kind : Misuse)
deriving DecidableEq

end ApiGraph.Yaml
