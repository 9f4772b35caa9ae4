import ApiGraph.Failure
import ApiGraph.Json.Reader
import ApiGraph.Text.Words

/-! The type of a content with its parameters, which stand after semicolons. A value is plain or in
quotes, or it is given in several numbered parameters with a star behind their name, some of which
have escapes. -/

namespace ApiGraph.ContentType

open Text

/-- A parameter: its name in small letters, and its value as it is written. -/
abbrev Parameter := List Char × List Char

/-- Whether a quotation is open at the end of a text. Quotes after a backslash do not count. -/
def isQuoting (cs : List Char) : Bool :=
  let escaped := ((cs.zip (cs.drop 1)).filter fun p => p.1 == '\\' && p.2 == '"').length
  ((cs.count '"' : Int) - escaped) % 2 != 0

/-- Joins the parts between semicolons, those inside a quotation to one. -/
def joinQuoted (opened : Option (List Char)) : List (List Char) → List (List Char)
  | [] => opened.toList
  | part :: rest =>
    let whole :=
      match opened with
      | some before => before ++ ';' :: part
      | none => part
    if isQuoting whole then joinQuoted (some whole) rest else whole :: joinQuoted none rest

/-- The parameter that a part between semicolons writes. -/
def parameterOf (part : List Char) : Parameter :=
  ((trim (part.takeWhile (· ≠ '='))).map Char.toLower, trim ((part.dropWhile (· ≠ '=')).drop 1))

/-- The parameters, the first of which is the type itself. -/
def parameters (text : String) : List Parameter :=
  (joinQuoted none (split ';' text.toList)).map parameterOf

/-- The text without the backslashes before quotes and backslashes. -/
def unescaped : List Char → List Char
  | '\\' :: '\\' :: rest => '\\' :: unescaped rest
  | '\\' :: '"' :: rest => '"' :: unescaped rest
  | c :: rest => c :: unescaped rest
  | [] => []

/-- The text inside quotes or angle brackets. -/
def unquoted (cs : List Char) : List Char :=
  if 1 < cs.length && cs.head? == some '"' && cs.getLast? == some '"' then
    unescaped (cs.drop 1).dropLast
  else if 1 < cs.length && cs.head? == some '<' && cs.getLast? == some '>' then
    (cs.drop 1).dropLast
  else cs

/-! Values in pieces. -/

/-- A piece of a value. -/
structure Piece where
  /-- The name of the parameter that the value is for. -/
  stem : List Char
  number : Option Nat
  escaped : Bool
  text : List Char

/-- The number that digits write, if there are any. -/
def number? (digits : List Char) : Option Nat :=
  if digits.isEmpty then none else some (Json.Reader.natOf digits)

/-- The piece that a parameter holds whose name is a word, a star, and perhaps a number. A star at
the end tells that there are escapes. -/
def pieceOf? (p : Parameter) : Option Piece :=
  let stem := p.1.takeWhile isWord
  match p.1.dropWhile isWord with
  | '*' :: rest =>
    let digits := rest.takeWhile Char.isDigit
    let piece (escaped : Bool) : Option Piece :=
      if stem.isEmpty then none else some ⟨stem, number? digits, escaped, unquoted p.2⟩
    match digits.isEmpty, rest.dropWhile Char.isDigit with
    | isPlain, [] => piece isPlain
    | false, ['*'] => piece true
    | _, _ => none
  | _ => none

/-- Whether a piece comes before another one or is equal to it. -/
def Piece.isBefore (p q : Piece) : Bool :=
  if p.number ≠ q.number then p.number.getD 0 < q.number.getD 0
  else if p.text ≠ q.text then String.ofList p.text < String.ofList q.text
  else !p.escaped || q.escaped

/-- Whether of two pieces of one value only one has a number; then they have no order. -/
def Piece.conflicts (p q : Piece) : Bool :=
  p.stem == q.stem && p.number.isSome != q.number.isSome

/-- The text with a character for each percent sign and two hexadecimal digits. -/
def percentDecoded : List Char → List Char
  | '%' :: a :: b :: rest =>
    match Json.Reader.hexValue? a, Json.Reader.hexValue? b with
    | some x, some y => Char.ofNat (x * 16 + y) :: percentDecoded rest
    | _, _ => '%' :: percentDecoded (a :: b :: rest)
  | c :: rest => c :: percentDecoded rest
  | [] => []
termination_by cs => cs.length

/-- What follows the second tick of a text, or all of it when there are no two. -/
def afterTicks (cs : List Char) : List Char :=
  match (cs.dropWhile (· ≠ '\'')).drop 1 with
  | rest =>
    match rest.dropWhile (· ≠ '\'') with
    | _ :: value => value
    | [] => cs

/-- The value that some pieces make. If any of them has escapes, its encoding and its language stand
before it. -/
def valueOf (pieces : List Piece) : List Char :=
  let texts := (pieces.mergeSort Piece.isBefore).map fun p =>
    if p.escaped then percentDecoded p.text else p.text
  if pieces.any Piece.escaped then afterTicks texts.flatten else texts.flatten

/-- The name of the encoding that the type of a content tells: by a parameter, or else by pieces
that make a text of ASCII. -/
def charset? (text : String) : Except Misuse (Option String) :=
  let ps := parameters text
  let pieces := (ps.drop 1).filterMap pieceOf?
  let name := "charset".toList
  let small (cs : List Char) : String := String.ofList (cs.map Char.toLower)
  if pieces.any fun p => pieces.any p.conflicts then .error .wrongType
  else
    match ps.lookup name, pieces.filter (·.stem == name) with
    | some value, _ => .ok (some (small (unquoted value)))
    | none, [] => .ok none
    | none, pieces =>
      let value := valueOf pieces
      .ok (if value.all fun c => c.toNat < 128 then some (small value) else none)

end ApiGraph.ContentType
