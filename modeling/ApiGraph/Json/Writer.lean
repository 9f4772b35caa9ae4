import ApiGraph.Json.Basic
import ApiGraph.Number.Shortest

/-! JSON as text. A style says how strings are escaped, what stands between items, whether the
text is indented and whether keys are sorted. The canonical text, with sorted keys and no
spaces, is the same for two values that differ only in the order of keys. -/

namespace ApiGraph

namespace Json

/-- The decisions of one way of writing JSON. -/
structure Style where
  /-- Whether characters beyond ASCII are escaped. -/
  ascii : Bool
  /-- What stands between two items. -/
  comma : List Char
  /-- What stands between a key and its value. -/
  colon : List Char
  /-- Spaces per level, when each item has a line of its own. -/
  indent : Option Nat
  /-- Whether keys are in the order of their code points. -/
  sorted : Bool

/-- Sorted keys, no spaces, ASCII only. -/
def Style.canonical : Style := ⟨true, [','], [':'], none, true⟩

/-- Sorted keys, a space after each separator, ASCII only. -/
def Style.spacedCanonical : Style := ⟨true, [',', ' '], [':', ' '], none, true⟩

/-- One line in the order of insertion, ASCII only. -/
def Style.line : Style := ⟨true, [',', ' '], [':', ' '], none, false⟩

/-- A line for each item in the order of insertion, ASCII only. -/
def Style.indented (n : Nat) : Style := ⟨true, [','], [':', ' '], some n, false⟩

/-- A line for each item, indented by two, with all characters as they are. -/
def Style.readable : Style := ⟨false, [','], [':', ' '], some 2, false⟩

/-- Four hexadecimal digits. -/
def hex4 (n : Nat) : List Char :=
  [n / 4096 % 16, n / 256 % 16, n / 16 % 16, n % 16].map Nat.digitChar

/-- A character above the basic plane takes two escapes. -/
def unicodeEscape (n : Nat) : List Char :=
  if n < 0x10000 then '\\' :: 'u' :: hex4 n
  else
    '\\' :: 'u' :: hex4 (0xD800 + (n - 0x10000) / 0x400) ++
      '\\' :: 'u' :: hex4 (0xDC00 + (n - 0x10000) % 0x400)

/-- One character inside a JSON string. -/
def escapeChar (ascii : Bool) (c : Char) : List Char :=
  if c = '"' then ['\\', '"']
  else if c = '\\' then ['\\', '\\']
  else if c = '\n' then ['\\', 'n']
  else if c = '\r' then ['\\', 'r']
  else if c = '\t' then ['\\', 't']
  else if c.toNat = 8 then ['\\', 'b']
  else if c.toNat = 12 then ['\\', 'f']
  else if c.toNat < 32 then unicodeEscape c.toNat
  else if ascii && 127 ≤ c.toNat then unicodeEscape c.toNat
  else [c]

/-- A JSON string. -/
def quote (ascii : Bool) (s : String) : List Char :=
  '"' :: s.toList.flatMap (escapeChar ascii) ++ ['"']

/-- A double in JSON text; the values that are no numbers have names. -/
def floatText : Double → List Char
  | .finite a m e => Double.finiteText .plain a m e
  | .infinite a => (if a then "-Infinity" else "Infinity").toList
  | .nan => "NaN".toList

/-- An integer in JSON text. -/
def intText (n : Int) : List Char :=
  if n < 0 then '-' :: Nat.toDigits 10 n.natAbs else Nat.toDigits 10 n.natAbs

/-- Entries in the order of their keys. -/
def sortEntries (entries : List (String × α)) : List (String × α) :=
  entries.mergeSort fun a b => decide (a.1 ≤ b.1)

/-- The break before an item at a level. -/
def Style.break (style : Style) (level : Nat) : List Char :=
  match style.indent with
  | none => []
  | some n => '\n' :: List.replicate (n * level) ' '

/-- Written items between brackets, at a level. -/
def Style.enclose (style : Style) (level : Nat) (opening closing : Char) :
    List (List Char) → List Char
  | [] => [opening, closing]
  | first :: rest =>
    opening :: style.break (level + 1) ++ first ++
      rest.flatMap (fun item => style.comma ++ style.break (level + 1) ++ item) ++
      style.break level ++ [closing]

mutual

/-- The text of a value at a level. -/
def write (style : Style) (level : Nat) : Json → List Char
  | .null => "null".toList
  | .bool b => (if b then "true" else "false").toList
  | .int n => intText n
  | .float x => floatText x
  | .str s => quote style.ascii s
  | .arr items => style.enclose level '[' ']' (writeItems style (level + 1) items)
  | .obj entries =>
    let written := writeEntries style (level + 1) entries
    let ordered := if style.sorted then sortEntries written else written
    style.enclose level '\x7b' '\x7d'
      (ordered.map fun p => quote style.ascii p.1 ++ style.colon ++ p.2)

/-- The text of each item. -/
def writeItems (style : Style) (level : Nat) : List Json → List (List Char)
  | [] => []
  | v :: rest => write style level v :: writeItems style level rest

/-- The text of each value, under its key. -/
def writeEntries (style : Style) (level : Nat) :
    List (String × Json) → List (String × List Char)
  | [] => []
  | (k, v) :: rest => (k, write style level v) :: writeEntries style level rest

end

/-- The value as text in a style. -/
def render (style : Style) (v : Json) : String := String.ofList (write style 0 v)

/-- The text that equal contents share. -/
def canonical (v : Json) : String := render .canonical v

end Json

end ApiGraph
