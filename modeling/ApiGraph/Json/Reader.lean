import ApiGraph.Json.Basic

/-! JSON from text. A text that is not JSON is refused with the flaw and the place of its first
character; the names `NaN`, `Infinity` and `-Infinity` are numbers here. -/

namespace ApiGraph

namespace Json

/-- What is wrong with a text that is not JSON. -/
inductive Flaw where
  | byteOrderMark
  | expectedValue
  | expectedKey
  | expectedColon
  | expectedComma
  | unterminatedString
  | controlCharacter
  | badEscape
  | badUnicodeEscape
  | extraData
  | hugeInteger
deriving DecidableEq

/-- The flaw in words. -/
def Flaw.message : Flaw → String
  | .byteOrderMark => "Unexpected UTF-8 BOM (decode using utf-8-sig)"
  | .expectedValue => "Expecting value"
  | .expectedKey => "Expecting property name enclosed in double quotes"
  | .expectedColon => "Expecting ':' delimiter"
  | .expectedComma => "Expecting ',' delimiter"
  | .unterminatedString => "Unterminated string starting at"
  | .controlCharacter => "Invalid control character at"
  | .badEscape => "Invalid \\escape"
  | .badUnicodeEscape => "Invalid \\uXXXX escape"
  | .extraData => "Extra data"
  | .hugeInteger => "Exceeds the limit (4300 digits) for integer string conversion"

/-- A flaw and the number of characters of the text before it. -/
structure Fault where
  flaw : Flaw
  line : Nat
  column : Nat
  offset : Nat
deriving DecidableEq

/-- The flaw in words, with the line and column counted from one. -/
def Fault.message (f : Fault) : String :=
  s!"{f.flaw.message}: line {f.line} column {f.column} (char {f.offset})"

/-- The fault at an offset of a text. -/
def Fault.at (text : List Char) (flaw : Flaw) (offset : Nat) : Fault :=
  let before := text.take offset
  ⟨flaw, before.count '\n' + 1, (before.reverse.takeWhile (· != '\n')).length + 1, offset⟩

namespace Reader

/-- Reading steps fail with a flaw and the text that is left where it begins. -/
abbrev Step (α : Type) := Except (Flaw × List Char) α

/-- The characters that may stand between the parts of a JSON text. -/
def isSpace (c : Char) : Bool := c == ' ' || c == '\t' || c == '\n' || c == '\r'

/-- Drops the space in front. -/
def skip (cs : List Char) : List Char := cs.dropWhile isSpace

/-- The value of a hexadecimal digit. -/
def hexValue? (c : Char) : Option Nat :=
  if '0' ≤ c ∧ c ≤ '9' then some (c.toNat - '0'.toNat)
  else if 'a' ≤ c ∧ c ≤ 'f' then some (c.toNat - 'a'.toNat + 10)
  else if 'A' ≤ c ∧ c ≤ 'F' then some (c.toNat - 'A'.toNat + 10)
  else none

/-- The value of four hexadecimal digits. -/
def hex4? (a b c d : Char) : Option Nat := do
  return (((← hexValue? a) * 16 + (← hexValue? b)) * 16 + (← hexValue? c)) * 16 + (← hexValue? d)

/-- The character that a short escape stands for. -/
def shortEscape? : Char → Option Char
  | '"' => some '"'
  | '\\' => some '\\'
  | '/' => some '/'
  | 'b' => some (Char.ofNat 8)
  | 'f' => some (Char.ofNat 12)
  | 'n' => some '\n'
  | 'r' => some '\r'
  | 't' => some '\t'
  | _ => none

/-- The characters that code units stand for: two halves of a pair make one character, and one
half alone makes none. -/
def joinUnits : List Nat → List Char
  | [] => []
  | [n] => [if 0xD800 ≤ n ∧ n < 0xE000 then Char.ofNat 0xFFFD else Char.ofNat n]
  | n :: m :: rest =>
    if 0xD800 ≤ n ∧ n < 0xDC00 ∧ 0xDC00 ≤ m ∧ m < 0xE000 then
      Char.ofNat (0x10000 + (n - 0xD800) * 0x400 + (m - 0xDC00)) :: joinUnits rest
    else if 0xD800 ≤ n ∧ n < 0xE000 then Char.ofNat 0xFFFD :: joinUnits (m :: rest)
    else Char.ofNat n :: joinUnits (m :: rest)

/-- The code units of a string after its opening quote; `opening` is the text from that quote on. -/
def readUnits (opening : List Char) (acc : List Nat) : List Char → Step (List Nat × List Char)
  | [] => .error (.unterminatedString, opening)
  | '"' :: rest => .ok (acc.reverse, rest)
  | '\\' :: 'u' :: a :: b :: c :: d :: e :: rest =>
    match hex4? a b c d with
    | none => .error (.badUnicodeEscape, 'u' :: a :: b :: c :: d :: e :: rest)
    | some n => readUnits opening (n :: acc) (e :: rest)
  | '\\' :: 'u' :: rest => .error (.badUnicodeEscape, 'u' :: rest)
  | '\\' :: c :: rest =>
    match shortEscape? c with
    | some c' => readUnits opening (c'.toNat :: acc) rest
    | none => .error (.badEscape, '\\' :: c :: rest)
  | ['\\'] => .error (.unterminatedString, opening)
  | c :: rest =>
    if c.toNat < 32 then .error (.controlCharacter, c :: rest)
    else readUnits opening (c.toNat :: acc) rest

/-- The text of a string after its opening quote. -/
def readString (opening cs : List Char) : Step (String × List Char) := do
  let (units, rest) ← readUnits opening [] cs
  return (String.ofList (joinUnits units), rest)

/-- The number that decimal digits write. -/
def natOf (ds : List Char) : Nat := ds.foldl (fun n c => n * 10 + (c.toNat - '0'.toNat)) 0

/-- The digits of a fraction, when a point and a digit come first. -/
def readFraction : List Char → List Char × List Char
  | '.' :: c :: rest =>
    if c.isDigit then ((c :: rest).takeWhile Char.isDigit, (c :: rest).dropWhile Char.isDigit)
    else ([], '.' :: c :: rest)
  | cs => ([], cs)

/-- The power of ten, when a mark and digits come first. -/
def readExponent (cs : List Char) : Option Int × List Char :=
  match cs with
  | e :: rest =>
    if e = 'e' ∨ e = 'E' then
      let (negative, ds) :=
        match rest with
        | '-' :: ds => (true, ds)
        | '+' :: ds => (false, ds)
        | ds => (false, ds)
      let digits := ds.takeWhile Char.isDigit
      if digits.isEmpty then (none, cs)
      else
        let n : Int := natOf digits
        (some (if negative then -n else n), ds.dropWhile Char.isDigit)
    else (none, cs)
  | [] => (none, [])

/-- A number after its sign; `left` is the text in front of the sign. -/
def readNumber (negative : Bool) (left cs : List Char) : Step (Json × List Char) :=
  let whole := if cs.head? = some '0' then ['0'] else cs.takeWhile Char.isDigit
  if whole.isEmpty then .error (.expectedValue, left)
  else
    let (fraction, rest) := readFraction (cs.drop whole.length)
    let (exponent, rest') := readExponent rest
    if fraction.isEmpty ∧ exponent.isNone then
      if 4300 < whole.length then .error (.hugeInteger, left)
      else
        let n : Int := natOf whole
        .ok (.int (if negative then -n else n), rest')
    else
      .ok (.float (.ofDecimal negative (natOf (whole ++ fraction))
        (exponent.getD 0 - fraction.length)), rest')

/-- The values that are written as a word. -/
def words : List (List Char × Json) :=
  [("null".toList, .null), ("true".toList, .bool true), ("false".toList, .bool false),
    ("NaN".toList, .float .nan), ("Infinity".toList, .float (.infinite false)),
    ("-Infinity".toList, .float (.infinite true))]

/-- A value that is neither a string nor a list nor an object. -/
def readScalar (cs : List Char) : Step (Json × List Char) :=
  match words.find? fun w => w.1.isPrefixOf cs with
  | some (w, v) => .ok (v, cs.drop w.length)
  | none =>
    match cs with
    | '-' :: rest => readNumber true cs rest
    | _ => readNumber false cs cs

mutual

/-- A value at the front of the text. The fuel bounds the number of values and is enough when it
exceeds the number of characters. -/
def readValue : Nat → List Char → Step (Json × List Char)
  | 0, cs => .error (.expectedValue, cs)
  | fuel + 1, cs =>
    match cs with
    | '"' :: rest => do
      let (s, rest') ← readString cs rest
      return (.str s, rest')
    | '[' :: rest =>
      match skip rest with
      | ']' :: rest' => .ok (.arr [], rest')
      | rest' => readItems fuel [] rest'
    | '\x7b' :: rest =>
      match skip rest with
      | '\x7d' :: rest' => .ok (.obj [], rest')
      | rest' => readMembers fuel [] rest'
    | _ => readScalar cs

/-- The items of a list from the first one on. -/
def readItems : Nat → List Json → List Char → Step (Json × List Char)
  | 0, _, cs => .error (.expectedValue, cs)
  | fuel + 1, acc, cs => do
    let (v, rest) ← readValue fuel cs
    match skip rest with
    | ']' :: rest' => return (.arr (v :: acc).reverse, rest')
    | ',' :: rest' => readItems fuel (v :: acc) (skip rest')
    | rest' => .error (.expectedComma, rest')

/-- The entries of an object from the first key on. -/
def readMembers : Nat → List (String × Json) → List Char → Step (Json × List Char)
  | 0, _, cs => .error (.expectedKey, cs)
  | fuel + 1, acc, cs =>
    match cs with
    | '"' :: rest => do
      let (k, rest) ← readString cs rest
      match skip rest with
      | ':' :: rest => do
        let (v, rest) ← readValue fuel (skip rest)
        let acc := (k, v) :: acc
        match skip rest with
        | '\x7d' :: rest => return (.ofEntries acc.reverse, rest)
        | ',' :: rest => readMembers fuel acc (skip rest)
        | rest => .error (.expectedComma, rest)
      | rest => .error (.expectedColon, rest)
    | _ => .error (.expectedKey, cs)

end

/-- The value that makes up the whole text. -/
def readWhole (cs : List Char) : Step Json :=
  if cs.head? = some (Char.ofNat 0xFEFF) then .error (.byteOrderMark, cs)
  else do
    let (v, rest) ← readValue (2 * cs.length + 2) (skip cs)
    match skip rest with
    | [] => return v
    | rest' => .error (.extraData, rest')

end Reader

/-- The value that a JSON text writes. -/
def parse (text : String) : Except Fault Json :=
  let cs := text.toList
  match Reader.readWhole cs with
  | .ok v => .ok v
  | .error (flaw, left) => .error (.at cs flaw (cs.length - left.length))

end Json

end ApiGraph
