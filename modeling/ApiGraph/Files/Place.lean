import ApiGraph.Text.Words

/-! Places of files: the names on the way to a file, from the root or from where a run begins. -/

namespace ApiGraph.Files

/-- Where a place is counted from. -/
inductive Origin where
  /-- Where a run begins. -/
  | here
  | root
  /-- The root, written with two slashes. -/
  | doubledRoot
deriving DecidableEq

namespace Origin

/-- What stands before the names. -/
def text : Origin → String
  | .here => ""
  | .root => "/"
  | .doubledRoot => "//"

/-- The origin that slashes in front write. Two of them are kept, more are as good as one. -/
def ofSlashes : Nat → Origin
  | 0 => .here
  | 2 => .doubledRoot
  | _ => .root

/-- The one origin of the places that two slashes and one slash lead to. -/
def settled : Origin → Origin
  | .here => .here
  | _ => .root

end Origin

/-- The place of a file. -/
structure Place where
  origin : Origin
  names : List String
deriving DecidableEq

namespace Place

/-- The place that a text names. Empty names and single points lead nowhere. -/
def ofText (text : String) : Place :=
  let names := (Text.split '/' text.toList).map String.ofList
  ⟨.ofSlashes (text.toList.takeWhile (· == '/')).length,
    names.filter fun n => n ≠ "" && n ≠ "."⟩

/-- The text of a place. -/
def text (p : Place) : String :=
  let whole := p.origin.text ++ String.intercalate "/" p.names
  if whole.isEmpty then "." else whole

/-- The place of a name inside another place. -/
def child (p : Place) (name : String) : Place := { p with names := p.names ++ [name] }

/-- The place around a place. -/
def parent (p : Place) : Place := { p with names := p.names.dropLast }

/-- Whether a place is the root, the beginning, or a directory that the beginning is in. -/
def isAround (p : Place) : Bool := p.names.all (· == "..")

/-- One step out of a directory. There is nothing around the root. -/
def out (p : Place) : Place :=
  if !p.isAround then p.parent else if p.origin = .here then p.child ".." else p

/-- One step from a directory. -/
def step (p : Place) (name : String) : Place := if name = ".." then p.out else p.child name

/-- The last name on the way. -/
def name (p : Place) : String := p.names.getLast?.getD ""

/-- What follows the last point of a name, the point included; a name that begins or ends with its
only point has no such ending. -/
def suffixOf (name : List Char) : List Char :=
  let tail := (name.reverse.takeWhile (· != '.')).reverse
  if tail.isEmpty || name.length ≤ tail.length + 1 then [] else '.' :: tail

/-- The ending of the last name, in small letters. -/
def suffix (p : Place) : String := String.ofList ((suffixOf p.name.toList).map Char.toLower)

end Place

end ApiGraph.Files
