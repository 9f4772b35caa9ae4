import ApiGraph.Dict
import ApiGraph.Number.Double

/-! JSON values. Objects keep the order in which their keys were written; integers and doubles
are different values even when they are numerically equal. -/

namespace ApiGraph

/-- A JSON value. -/
inductive Json where
  | null
  | bool (b : Bool)
  | int (n : Int)
  | float (x : Double)
  | str (s : String)
  | arr (items : List Json)
  | obj (entries : List (String × Json))

namespace Json

/-- Whether the value is an object. -/
def isObject : Json → Bool
  | .obj _ => true
  | _ => false

/-- Whether the value is null. -/
def isNull : Json → Bool
  | .null => true
  | _ => false

/-- The value under a key of an object; other values have no keys. -/
def get? : Json → String → Option Json
  | .obj entries, k => entries.lookup k
  | _, _ => none

/-- The value under a key, null when there is none. -/
def get (v : Json) (k : String) : Json := (v.get? k).getD .null

/-- Whether an object has the key. -/
def has (v : Json) (k : String) : Bool := (v.get? k).isSome

/-- Whether a test of the value succeeds: null, false, zero and everything empty fail it. -/
def truthy : Json → Bool
  | .null => false
  | .bool b => b
  | .int n => n != 0
  | .float x => !x.isZero
  | .str s => s != ""
  | .arr items => !items.isEmpty
  | .obj entries => !entries.isEmpty

/-- The value itself, or nothing when it is null. -/
def nonNull : Json → Option Json
  | .null => none
  | v => some v

/-- The text of a string value. -/
def text? : Json → Option String
  | .str s => some s
  | _ => none

/-- What a value is gone through by: the items of a list, the characters of a text, the keys of
an object. Other values have no parts. -/
def parts? : Json → Option (List Json)
  | .arr items => some items
  | .str s => some (s.toList.map fun c => .str (String.singleton c))
  | .obj entries => some (entries.map fun p => .str p.1)
  | _ => none

/-- The object with these entries, written one after the other. -/
def ofEntries (entries : List (String × Json)) : Json := .obj (Dict.ofEntries entries)

mutual

/-- Replaces the doubles that are no finite numbers by null. -/
def finite : Json → Json
  | .float x => if x.isFinite then .float x else .null
  | .arr items => .arr (finiteItems items)
  | .obj entries => .obj (finiteEntries entries)
  | v => v

/-- The same for each item. -/
def finiteItems : List Json → List Json
  | [] => []
  | v :: rest => finite v :: finiteItems rest

/-- The same for each value. -/
def finiteEntries : List (String × Json) → List (String × Json)
  | [] => []
  | (k, v) :: rest => (k, finite v) :: finiteEntries rest

end

mutual

/-- The number of values in a value, itself included. -/
def size : Json → Nat
  | .arr items => sizeItems items + 1
  | .obj entries => sizeEntries entries + 1
  | _ => 1

/-- The number of values in some items. -/
def sizeItems : List Json → Nat
  | [] => 0
  | v :: rest => size v + sizeItems rest

/-- The number of values in some entries. -/
def sizeEntries : List (String × Json) → Nat
  | [] => 0
  | (_, v) :: rest => size v + sizeEntries rest

end

end Json

end ApiGraph
