import ApiGraph.Datum
import ApiGraph.Number.Decimal
import ApiGraph.Number.Integer
import ApiGraph.Text.Words
import ApiGraph.Yaml.Flaw
import ApiGraph.Yaml.Tag

/-! The values of single texts by their types: truth values, numbers to several bases, days and
moments, bytes. -/

namespace ApiGraph.Yaml.Value

open Text

/-- A value that a text has to have, or else the flaw. -/
def expect (kind : Misuse) : Option α → Except Flaw α
  | some a => .ok a
  | none => .error (.value kind)

/-- The truth value of a word in any case. -/
def bool (cs : List Char) : Except Flaw Datum :=
  match String.ofList (cs.map Char.toLower) with
  | "yes" | "true" | "on" => .ok (.bool true)
  | "no" | "false" | "off" => .ok (.bool false)
  | _ => .error (.value .missingKey)

/-- The sign of a number without underscores, and what follows it. -/
def signed (cs : List Char) : Bool × List Char :=
  match cs.filter (· != '_') with
  | '-' :: rest => (true, rest)
  | '+' :: rest => (false, rest)
  | rest => (false, rest)

/-- The number with these digits to the base sixty, the most significant first. -/
def sexagesimal (digits : List Int) : Int := digits.foldl (fun n d => n * 60 + d) 0

/-- The magnitude of an integer. -/
def magnitude : List Char → Except Flaw Int
  | [] => .error (.value .outOfRange)
  | ['0'] => .ok 0
  | '0' :: 'b' :: ds => expect .badValue (Integer.ofText? 2 ds)
  | '0' :: 'x' :: ds => expect .badValue (Integer.ofText? 16 ds)
  | '0' :: ds => expect .badValue (Integer.ofText? 8 ('0' :: ds))
  | cs =>
    if cs.contains ':' then
      (expect .badValue ((split ':' cs).mapM (Integer.ofText? 10))).map sexagesimal
    else expect .badValue (Integer.ofText? 10 cs)

/-- The integer that a text writes. -/
def int (cs : List Char) : Except Flaw Datum :=
  if (cs.filter (· != '_')).isEmpty then .error (.value .outOfRange)
  else
    let (negative, digits) := signed cs
    (magnitude digits).map fun n => .int (if negative then -n else n)

/-- The sum of digits to the base sixty, the least significant first, with a rounding after each
step. -/
def sumSixtieths (total : Double) (base : Nat) : List Double → Double
  | [] => total
  | d :: rest => sumSixtieths (total.add (d.mul (.ofInt base))) (base * 60) rest

/-- The double that a text writes. -/
def float (cs : List Char) : Except Flaw Datum :=
  if (cs.filter (· != '_')).isEmpty then .error (.value .outOfRange)
  else
    let (negative, body) := signed (cs.map Char.toLower)
    let size :=
      if body = ".inf".toList then .ok (.infinite false)
      else if body = ".nan".toList then .ok .nan
      else if body.contains ':' then
        (expect .badValue ((split ':' body).mapM Double.ofText?)).map fun ds =>
          sumSixtieths (.zero false) 1 ds.reverse
      else expect .badValue (Double.ofText? body)
    size.map fun x => .float (if negative then x.neg else x)

/-- Whether the text of a double is the mark of what is no number. -/
def isNanMark (cs : List Char) : Bool := (signed (cs.map Char.toLower)).2 == ".nan".toList

/-- The value of a character that stands for six bits. -/
def sextet? (c : Char) : Option Nat :=
  if 'A' ≤ c ∧ c ≤ 'Z' then some (c.toNat - 'A'.toNat)
  else if 'a' ≤ c ∧ c ≤ 'z' then some (c.toNat - 'a'.toNat + 26)
  else if '0' ≤ c ∧ c ≤ '9' then some (c.toNat - '0'.toNat + 52)
  else if c = '+' then some 62
  else if c = '/' then some 63
  else none

/-- The bytes that characters for six bits each stand for. `place` is the number of characters of
a group of four that were read, `bits` what is left of them, and `padding` the number of padding
characters since; other characters are passed over. No bytes come out of a group that is cut. -/
def bytes? (acc : List UInt8) (place bits padding : Nat) : List Char → Option (List UInt8)
  | [] => if place = 0 then some acc.reverse else none
  | '=' :: rest =>
    if place < 2 then bytes? acc place bits padding rest
    else if 4 ≤ place + padding + 1 then some acc.reverse
    else bytes? acc place bits (padding + 1) rest
  | c :: rest =>
    match sextet? c with
    | none => bytes? acc place bits padding rest
    | some v =>
      match place with
      | 0 => bytes? acc 1 v 0 rest
      | 1 => bytes? (UInt8.ofNat (bits * 4 + v / 16) :: acc) 2 (v % 16) 0 rest
      | 2 => bytes? (UInt8.ofNat (bits * 16 + v / 4) :: acc) 3 (v % 4) 0 rest
      | _ => bytes? (UInt8.ofNat (bits * 64 + v) :: acc) 0 0 0 rest

/-- The bytes that a text writes. -/
def binary (cs : List Char) : Except Flaw Datum :=
  if cs.all fun c => c.toNat < 128 then
    match bytes? [] 0 0 0 cs with
    | some bs => .ok (.bytes bs)
    | none => .error .malformed
  else .error .malformed

/-- A number of some digits, and what is left after them. -/
def count? (least most : Nat) (cs : List Char) : Option (Nat × List Char) := do
  let rest ← Tag.afterCount? least most cs
  return (Double.natOf (cs.take (cs.length - rest.length)), rest)

/-- The microseconds of a fraction, and what is left after it. -/
def micros (cs : List Char) : Nat × List Char :=
  match cs with
  | '.' :: rest =>
    let digits := (rest.takeWhile Char.isDigit).take 6
    (Double.natOf (digits ++ List.replicate (6 - digits.length) '0'), rest.dropWhile Char.isDigit)
  | cs => (0, cs)

/-- The minutes that a zone is ahead, if the text is a zone or nothing. -/
def zone? (cs : List Char) : Option (Option Int) :=
  if !Tag.isZone cs then none
  else
    match cs.dropWhile Tag.isInlineBlank with
    | [] => some none
    | ['Z'] => some (some 0)
    | sign :: rest => do
      let (hours, rest) ← count? 1 2 rest
      let (minutes, _) := (count? 2 2 (rest.drop 1)).getD (0, [])
      let ahead : Int := hours * 60 + minutes
      return some (if sign == '-' then -ahead else ahead)

/-- A day and perhaps the numbers of a time of day, as the text has them. -/
structure Stamp where
  year : Nat
  month : Nat
  day : Nat
  time : Option (Nat × Nat × Nat × Nat × Option Int)

/-- The numbers of a day with or without a time of day. -/
def stamp? (cs : List Char) : Option Stamp := do
  let (year, cs) ← count? 4 4 cs
  let (month, cs) ← count? 1 2 (← Tag.after? '-' cs)
  let (day, cs) ← count? 1 2 (← Tag.after? '-' cs)
  if cs.isEmpty then return ⟨year, month, day, none⟩
  let (hour, cs) ← count? 1 2 (← Tag.afterTimeMark? cs)
  let (minute, cs) ← count? 2 2 (← Tag.after? ':' cs)
  let (second, cs) ← count? 2 2 (← Tag.after? ':' cs)
  let (micro, cs) := micros cs
  return ⟨year, month, day, some (hour, minute, second, micro, ← zone? cs)⟩

/-- The day or the moment with these numbers. -/
def Stamp.datum? (s : Stamp) : Option Datum := do
  let date ← Date.make? s.year s.month s.day
  match s.time with
  | none => return .date date
  | some (hour, minute, second, micro, offset) =>
    return .moment (← Moment.make? date hour minute second micro offset)

/-- The day or the moment that a text writes. -/
def timestamp (cs : List Char) : Except Flaw Datum := do
  let stamp ← expect .noMember ((stamp? cs).or (stamp? (Tag.dropLastBreak cs)))
  expect .badValue stamp.datum?

/-- The value of a text by its type. -/
def ofText (tag : Tag) (text : String) : Except Flaw Datum :=
  let cs := text.toList
  match tag with
  | .null => .ok .null
  | .bool => bool cs
  | .int => int cs
  | .float => float cs
  | .binary => binary cs
  | .timestamp => timestamp cs
  | .text => .ok (.text text)
  | _ => .error .malformed

end ApiGraph.Yaml.Value
