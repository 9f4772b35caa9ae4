import ApiGraph.Json.Basic
import ApiGraph.Number.Integer

/-! Values read against an expected shape. Reading a record goes on after a mismatch, so that the
answer lists every part that does not fit, in the order of the record's fields. -/

namespace ApiGraph

namespace Shape

/-- A step from a value to one of its parts. -/
inductive Step where
  | key (name : String)
  | item (index : Nat)
deriving DecidableEq

/-- Why a part does not fit. -/
inductive Reason where
  | missing
  | text
  | list
  | dict
  | record
  | choice
  | flag
  | flagText
  | number
  | numberText
  | numberSize
  | fraction
  | unbounded
deriving DecidableEq

/-- A part that does not fit, and why. -/
structure Mismatch where
  place : List Step
  reason : Reason
deriving DecidableEq

/-- A value that was read, or all the mismatches. -/
inductive Checked (α : Type) where
  | fits (a : α)
  | fails (mismatches : List Mismatch)

namespace Checked

/-- Applies a function to the value. -/
def map (f : α → β) : Checked α → Checked β
  | .fits a => .fits (f a)
  | .fails ms => .fails ms

/-- Reads on after a mismatch. -/
def both : Checked (α → β) → Checked α → Checked β
  | .fits f, .fits a => .fits (f a)
  | .fits _, .fails ms => .fails ms
  | .fails ms, .fits _ => .fails ms
  | .fails ms, .fails ns => .fails (ms ++ ns)

instance : Functor Checked where
  map := map

instance : Applicative Checked where
  pure := .fits
  seq f a := both f (a ())

/-- A lone mismatch. -/
def refuse (reason : Reason) : Checked α := .fails [⟨[], reason⟩]

/-- The mismatches as seen from a whole that has the value as a part. -/
def under (step : Step) : Checked α → Checked α
  | .fits a => .fits a
  | .fails ms => .fails (ms.map fun m => ⟨step :: m.place, m.reason⟩)

/-- The value, when there was no mismatch. -/
def value? : Checked α → Option α
  | .fits a => some a
  | .fails _ => none

/-- Reads the values of a list, each under its step. -/
def each (read : α → Checked β) : List (Step × α) → Checked (List β)
  | [] => .fits []
  | (step, a) :: rest => both (map List.cons (under step (read a))) (each read rest)

end Checked

/-- Every value fits. -/
def any (v : Json) : Checked Json := .fits v

/-- A string. -/
def text : Json → Checked String
  | .str s => .fits s
  | _ => .refuse .text

/-- Null, or a value of a shape. -/
def optional (read : Json → Checked α) : Json → Checked (Option α)
  | .null => .fits none
  | v => (read v).map some

/-- A list of values of a shape. -/
def list (read : Json → Checked α) : Json → Checked (List α)
  | .arr items => .each read (items.zipIdx.map fun p => (.item p.2, p.1))
  | _ => .refuse .list

/-- An object whose values are of a shape. -/
def dict (read : Json → Checked α) : Json → Checked (List (String × α))
  | .obj entries =>
    .each (fun p => (read p.2).map (p.1, ·)) (entries.map fun p => (.key p.1, p))
  | _ => .refuse .dict

/-- One of the words of a vocabulary. -/
def choice (read : String → Option α) : Json → Checked α
  | .str s =>
    match read s with
    | some a => .fits a
    | none => .refuse .choice
  | _ => .refuse .choice

/-- The words for true and for false. -/
def flagWords : List (String × Bool) :=
  [("1", true), ("t", true), ("true", true), ("y", true), ("yes", true), ("on", true),
    ("0", false), ("f", false), ("false", false), ("n", false), ("no", false), ("off", false)]

/-- The words of a machine are the integers from minus this number up to one less than it. -/
def wordBound : Int := Nat.pow 2 63

/-- A whole number that stands for a truth value. -/
def flagInt (n : Int) : Checked Bool :=
  if n = 0 then .fits false else if n = 1 then .fits true else .refuse .flagText

/-- A truth value, also as zero or one or as a word in any case. Numbers that are no word of a
machine are no truth values at all. -/
def flag : Json → Checked Bool
  | .bool b => .fits b
  | .str s =>
    match flagWords.lookup (String.ofList (s.toList.map Char.toLower)) with
    | some b => .fits b
    | none => .refuse .flagText
  | .int n => if -wordBound ≤ n && n < wordBound then flagInt n else .refuse .flag
  | .float x =>
    match x.toInt? with
    | some n => if -wordBound < n && n < wordBound then flagInt n else .refuse .flag
    | none => .refuse .flag
  | _ => .refuse .flag

/-- The number that digits write. -/
def natOf (digits : List Char) : Nat :=
  digits.foldl (fun n c => n * 10 + (c.toNat - '0'.toNat)) 0

/-- Drops a point and the zeros behind it, one at least. -/
def dropZeroFraction (cs : List Char) : List Char :=
  let tail := cs.dropWhile (· ≠ '.')
  if 2 ≤ tail.length && (tail.drop 1).all (· == '0') then cs.takeWhile (· ≠ '.') else cs

/-- Drops zeros and underscores in front. What follows them has to be a digit or a minus sign;
when nothing does, the last character stays. -/
def dropZeros : List Char → Option (List Char)
  | '0' :: rest =>
    match rest.dropWhile fun c => c == '0' || c == '_' with
    | [] => some [('0' :: rest).getLast (by simp)]
    | c :: more => if c.isDigit || c == '-' then some (c :: more) else none
  | c :: rest => if c.isDigit || c == '-' then some (c :: rest) else none
  | [] => none

/-- Drops underscores, unless one is the first or the last character or two are in a row. -/
def dropUnderscores (cs : List Char) : List Char :=
  let doubled := (cs.zip (cs.drop 1)).any fun p => p.1 == '_' && p.2 == '_'
  if cs.head? == some '_' || cs.getLast? == some '_' || doubled then cs else cs.filter (· ≠ '_')

/-- A whole number in its plain form: perhaps a minus sign, then zero alone or digits that begin
with another one. More characters than a number may have digits are too many. -/
def plainInteger (cs : List Char) : Checked Int :=
  let (negative, digits) :=
    match cs with
    | '-' :: rest => (true, rest)
    | rest => (false, rest)
  let whole := digits.takeWhile Char.isDigit
  if whole.head? == some '0' then
    if digits = ['0'] then .fits 0 else .refuse .numberText
  else if Integer.maxDigits < cs.length - (digits.length - whole.length) then .refuse .numberSize
  else if whole.isEmpty || whole.length < digits.length then .refuse .numberText
  else .fits (if negative then -(natOf whole : Int) else natOf whole)

/-- A whole number in text. Margins, a plus sign, a fraction of zeros and underscores between
digits are left out, and so are zeros in front, even if a minus sign follows them. -/
def integerText (s : String) : Checked Int :=
  match Text.trimBy Text.isMargin s.toList with
  | '+' :: '-' :: _ => .refuse .numberText
  | cs =>
    let body := if cs.head? = some '+' then cs.drop 1 else cs
    match dropZeros (dropZeroFraction body) with
    | some digits => plainInteger (dropUnderscores digits)
    | none => .refuse .numberText

/-- A whole number, also as a truth value, as a double without a fraction or in text. -/
def integer : Json → Checked Int
  | .int n => .fits n
  | .bool b => .fits (if b then 1 else 0)
  | .float x =>
    if !x.isFinite then .refuse .unbounded
    else
      match x.toInt? with
      | some n => if -wordBound < n && n < wordBound then .fits n else .refuse .numberSize
      | none => .refuse .fraction
  | .str s => integerText s
  | _ => .refuse .number

/-- The first of some names that an object has a value under. -/
def under? (v : Json) : List String → Option (String × Json)
  | [] => none
  | name :: rest =>
    match v.get? name with
    | some x => some (name, x)
    | none => under? v rest

/-- A field with its names, the first of which is the one that a mismatch reports when the
field is missing. -/
def field (names : List String) (absent : Checked α) (read : Json → Checked α) (v : Json) :
    Checked α :=
  match under? v names with
  | some (name, x) => (read x).under (.key name)
  | none => absent.under (.key (names.headD ""))

/-- A field that has to be there. -/
def mandatory (names : List String) (read : Json → Checked α) (v : Json) : Checked α :=
  field names (.refuse .missing) read v

/-- A field with a value for when it is not there. -/
def withDefault (names : List String) (a : α) (read : Json → Checked α) (v : Json) : Checked α :=
  field names (.fits a) read v

/-- An object whose fields are read. -/
def record (read : Json → Checked α) (v : Json) : Checked α :=
  if v.isObject then read v else .refuse .record

end Shape

end ApiGraph
