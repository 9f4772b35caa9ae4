/-! Binary floating-point numbers of double width, held exactly as sign, mantissa and power of
two. A rational is rounded to the nearest of them, a tie to the even mantissa. -/

namespace ApiGraph

/-- A double: `± mantissa · 2 ^ exponent`, an infinity, or no number. -/
inductive Double where
  | finite (negative : Bool) (mantissa : Nat) (exponent : Int)
  | infinite (negative : Bool)
  | nan
deriving DecidableEq

namespace Double

/-- The exponent of the smallest positive double. -/
def minExponent : Int := -1074

/-- The exponent of the largest finite double. -/
def maxExponent : Int := 971

/-- The two zeros. -/
def zero (negative : Bool) : Double := .finite negative 0 minExponent

/-- A quotient rounded to the nearest integer, a tie to the even one. -/
def divRound (num den : Nat) : Nat :=
  let q := num / den
  let r := num % den
  if 2 * r < den then q else if den < 2 * r then q + 1 else q + q % 2

/-- A power of a number; one for a negative exponent. -/
def power (base : Nat) (e : Int) : Nat := Nat.pow base e.toNat

/-- The greatest `e` with `2 ^ e ≤ num / den`, for positive `num` and `den`. -/
def floorLog2 (num den : Nat) : Int :=
  let e : Int := (num.log2 : Int) - den.log2
  if den * power 2 e ≤ num * power 2 (-e) then e else e - 1

/-- The double with this mantissa and exponent; too large an exponent gives an infinity. -/
def pack (negative : Bool) (mantissa : Nat) (exponent : Int) : Double :=
  if mantissa = Nat.pow 2 53 then
    if maxExponent < exponent + 1 then .infinite negative
    else .finite negative (Nat.pow 2 52) (exponent + 1)
  else if maxExponent < exponent then .infinite negative
  else .finite negative mantissa exponent

/-- The double nearest to `± num / den`. -/
def ofRatio (negative : Bool) (num den : Nat) : Double :=
  if num = 0 then zero negative
  else
    let q := max (floorLog2 num den - 52) minExponent
    pack negative (divRound (num * power 2 (-q)) (den * power 2 q)) q

/-- The double nearest to `± m · 2 ^ e`. -/
def ofDyadic (negative : Bool) (m : Nat) (e : Int) : Double :=
  ofRatio negative (m * power 2 e) (power 2 (-e))

/-- The double nearest to `± digits · 10 ^ e`. Decimals far outside the range of doubles are
settled by their size. -/
def ofDecimal (negative : Bool) (digits : Nat) (e : Int) : Double :=
  if digits = 0 then zero negative
  else
    let size : Int := (Nat.toDigits 10 digits).length + e
    if 400 < size then .infinite negative
    else if size < -400 then zero negative
    else ofRatio negative (digits * power 10 e) (power 10 (-e))

/-- The double nearest to an integer. -/
def ofInt (n : Int) : Double := ofRatio (n < 0) n.natAbs 1

/-- An integer with a sign of its own. -/
def signed (negative : Bool) (m : Nat) : Int := if negative then -(m : Int) else m

/-- The sum, rounded; opposite infinities give no number. -/
def add : Double → Double → Double
  | .nan, _ | _, .nan => .nan
  | .infinite a, .infinite b => if a = b then .infinite a else .nan
  | .infinite a, _ | _, .infinite a => .infinite a
  | .finite a m e, .finite b n f =>
    let low := min e f
    let total := signed a m * power 2 (e - low) + signed b n * power 2 (f - low)
    if total = 0 then zero (a && b) else ofDyadic (total < 0) total.natAbs low

/-- The product, rounded; an infinity times zero gives no number. -/
def mul : Double → Double → Double
  | .nan, _ | _, .nan => .nan
  | .infinite a, .infinite b => .infinite (a != b)
  | .infinite a, .finite b m _ | .finite b m _, .infinite a =>
    if m = 0 then .nan else .infinite (a != b)
  | .finite a m e, .finite b n f => ofDyadic (a != b) (m * n) (e + f)

/-- The number with the other sign. -/
def neg : Double → Double
  | .finite a m e => .finite (!a) m e
  | .infinite a => .infinite (!a)
  | .nan => .nan

/-- Whether the number is one of the zeros. -/
def isZero : Double → Bool
  | .finite _ m _ => m = 0
  | _ => false

/-- Whether the number is finite. -/
def isFinite : Double → Bool
  | .finite .. => true
  | _ => false

/-- The integer that a finite double without a fractional part equals. -/
def toInt? : Double → Option Int
  | .finite a m e =>
    if m % power 2 (-e) = 0 then some (signed a (m * power 2 e / power 2 (-e)))
    else none
  | _ => none

/-- A finite double as a fraction with a positive denominator. -/
def toFraction? : Double → Option (Int × Nat)
  | .finite a m e => some (signed a (m * power 2 e), power 2 (-e))
  | _ => none

end Double

end ApiGraph
