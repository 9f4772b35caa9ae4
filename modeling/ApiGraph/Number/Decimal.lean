import ApiGraph.Number.Double
import ApiGraph.Text.Blank
import ApiGraph.Text.Decimal

/-! Doubles in text: padding, a sign, and the word for an infinity or for no number, or digits of
any script with a point and a power of ten. -/

namespace ApiGraph.Double

open Text

/-- The ASCII form of a digit of any script; other characters stay. -/
def asciiDigit (c : Char) : Char :=
  match decimalValue? c with
  | some d => Nat.digitChar d
  | none => c

/-- The words for an infinity and for no number. -/
def ofWord? (negative : Bool) (cs : List Char) : Option Double :=
  match String.ofList (cs.map Char.toLower) with
  | "inf" | "infinity" => some (.infinite negative)
  | "nan" => some .nan
  | _ => none

/-- The number that digits write. -/
def natOf (ds : List Char) : Nat := ds.foldl (fun n c => n * 10 + (c.toNat - '0'.toNat)) 0

/-- A power of ten, which makes up the whole of the text. -/
def power? : List Char → Option Int
  | [] => some 0
  | e :: rest =>
    if e = 'e' ∨ e = 'E' then
      let (negative, ds) :=
        match rest with
        | '-' :: ds => (true, ds)
        | '+' :: ds => (false, ds)
        | ds => (false, ds)
      if ds.isEmpty || !ds.all Char.isDigit then none
      else
        let n : Int := natOf ds
        some (if negative then -n else n)
    else none

/-- A decimal, which makes up the whole of the text. -/
def decimal? (negative : Bool) (cs : List Char) : Option Double :=
  let whole := cs.takeWhile Char.isDigit
  let (fraction, rest) :=
    match cs.dropWhile Char.isDigit with
    | '.' :: rest => (rest.takeWhile Char.isDigit, rest.dropWhile Char.isDigit)
    | rest => ([], rest)
  if whole.isEmpty && fraction.isEmpty then none
  else (power? rest).map fun p => ofDecimal negative (natOf (whole ++ fraction)) (p - fraction.length)

/-- The double that a text writes. -/
def ofText? (cs : List Char) : Option Double :=
  let (negative, body) :=
    match (trimBy isMargin cs).map asciiDigit with
    | '-' :: rest => (true, rest)
    | '+' :: rest => (false, rest)
    | rest => (false, rest)
  match ofWord? negative body with
  | some x => some x
  | none => decimal? negative body

end ApiGraph.Double
