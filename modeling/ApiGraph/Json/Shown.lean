import ApiGraph.Json.Writer
import ApiGraph.Text.Quoted
import ApiGraph.Text.Words

/-! Values as messages show them: a string alone stands bare, inside a list or an object it is
quoted; the constants are capitalised words. -/

namespace ApiGraph

namespace Json

/-- A double in a message. -/
def shownFloat : Double → List Char
  | .finite a m e => Double.finiteText .plain a m e
  | .infinite a => (if a then "-inf" else "inf").toList
  | .nan => "nan".toList

/-- A quoted string in a message. -/
def shownKey (s : String) : List Char := Text.quoted s.toList

mutual

/-- A value inside a message, strings quoted. -/
def nested : Json → List Char
  | .null => "None".toList
  | .bool b => (if b then "True" else "False").toList
  | .int n => intText n
  | .float x => shownFloat x
  | .str s => shownKey s
  | .arr items => '[' :: Text.join [',', ' '] (nestedItems items) ++ [']']
  | .obj entries => '\x7b' :: Text.join [',', ' '] (nestedEntries entries) ++ ['\x7d']

/-- Each item inside a message. -/
def nestedItems : List Json → List (List Char)
  | [] => []
  | v :: rest => nested v :: nestedItems rest

/-- Each entry inside a message. -/
def nestedEntries : List (String × Json) → List (List Char)
  | [] => []
  | (k, v) :: rest => (shownKey k ++ ':' :: ' ' :: nested v) :: nestedEntries rest

end

/-- A value as a message shows it. -/
def shown : Json → String
  | .str s => s
  | v => String.ofList (nested v)

/-- The word for the type of a value. -/
def typeName : Json → String
  | .null => "NoneType"
  | .bool _ => "bool"
  | .int _ => "int"
  | .float _ => "float"
  | .str _ => "str"
  | .arr _ => "list"
  | .obj _ => "dict"

end Json

end ApiGraph
