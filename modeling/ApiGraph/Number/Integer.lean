import ApiGraph.Text.Blank
import ApiGraph.Text.Decimal

/-! Whole numbers in text: padding, a sign, perhaps a mark of the base, and digits of any script
with single underscores between them. -/

namespace ApiGraph.Integer

open Text

/-- The value of a decimal digit of any script, or of a letter from ten on. -/
def digitValue? (c : Char) : Option Nat :=
  match decimalValue? c with
  | some d => some d
  | none =>
    if 'a' ≤ c ∧ c ≤ 'z' then some (c.toNat - 'a'.toNat + 10)
    else if 'A' ≤ c ∧ c ≤ 'Z' then some (c.toNat - 'A'.toNat + 10)
    else none

/-- The value of a digit that is less than the base. -/
def digitIn? (base : Nat) (c : Char) : Option Nat :=
  (digitValue? c).bind fun d => if d < base then some d else none

/-- The number that digits write, with single underscores between them, after another one. -/
def digitsValue? (base acc : Nat) : List Char → Option Nat
  | [] => some acc
  | ['_'] => none
  | '_' :: d :: rest => do digitsValue? base (acc * base + (← digitIn? base d)) rest
  | c :: rest => do digitsValue? base (acc * base + (← digitIn? base c)) rest

/-- The letters that mark a base after a zero. -/
def baseMarks (base : Nat) : List Char :=
  if base = 2 then ['b', 'B'] else if base = 8 then ['o', 'O'] else if base = 16 then ['x', 'X']
  else []

/-- Drops the mark of a base, and an underscore after it. -/
def dropMark (base : Nat) : List Char → List Char
  | '0' :: c :: rest =>
    if (baseMarks base).contains c then if rest.head? = some '_' then rest.drop 1 else rest
    else '0' :: c :: rest
  | cs => cs

/-- The number of digits that a number of base ten may have. -/
def maxDigits : Nat := 4300

/-- The number that digits write; it has one at least, and begins with none of the
underscores. -/
def unsigned? (base : Nat) (cs : List Char) : Option Nat :=
  match dropMark base cs with
  | [] => none
  | '_' :: _ => none
  | digits =>
    if base = 10 && maxDigits < (digits.filter (· ≠ '_')).length then none
    else digitsValue? base 0 digits

/-- The whole number that a text writes. -/
def ofText? (base : Nat) (cs : List Char) : Option Int :=
  match trimBy isMargin cs with
  | '-' :: ds => (unsigned? base ds).map fun n => -(n : Int)
  | '+' :: ds => (unsigned? base ds).map Int.ofNat
  | ds => (unsigned? base ds).map Int.ofNat

end ApiGraph.Integer
