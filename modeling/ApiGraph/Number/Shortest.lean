import ApiGraph.Number.Double

/-! The shortest decimal that reads back as a given double, and its layout as text. For one
digit, two digits and so on up to seventeen, the value's two neighbours on that decimal grid are
tried; the first grid with a hit wins, and of two hits the nearer. -/

namespace ApiGraph

namespace Double

/-- The order of `a · 10 ^ p` and `b · 2 ^ q`. -/
def compareScaled (a : Nat) (p : Int) (b : Nat) (q : Int) : Ordering :=
  compare (a * power 10 p * power 2 (-q)) (b * power 2 q * power 10 (-p))

/-- Whether `c · 10 ^ p` rounds to the double `m · 2 ^ e`: it lies between the midpoints to the
neighbouring doubles, the midpoints included iff `m` is even. -/
def roundsTo (m : Nat) (e : Int) (c : Nat) (p : Int) : Bool :=
  let low := if m = Nat.pow 2 52 && minExponent < e then 4 * m - 1 else 4 * m - 2
  let high := 4 * m + 2
  let even := m % 2 = 0
  let above := compareScaled c p low (e - 2)
  let below := compareScaled c p high (e - 2)
  (above == .gt || (even && above == .eq)) && (below == .lt || (even && below == .eq))

/-- The power `k` with `10 ^ (k - 1) ≤ num / den < 10 ^ k`, for positive `num` and `den`. -/
def decimalPoint (num den : Nat) : Int :=
  if den ≤ num then (Nat.toDigits 10 (num / den)).length
  else
    let t := (Nat.toDigits 10 (den / num)).length
    if den ≤ num * Nat.pow 10 (t - 1) then 2 - (t : Int) else 1 - (t : Int)

/-- The hit on the grid of `n` digits, if there is one. -/
def gridHit (m : Nat) (e k : Int) (n : Nat) : Option (Nat × Int) :=
  let p := k - n
  let num := m * power 2 e * power 10 (-p)
  let den := power 2 (-e) * power 10 p
  let d := num / den
  match roundsTo m e d p, roundsTo m e (d + 1) p with
  | true, true =>
    let twice := 2 * (num % den)
    some (if twice < den || (twice = den && d % 2 = 0) then d else d + 1, p)
  | true, false => some (d, p)
  | false, true => some (d + 1, p)
  | false, false => none

/-- The digits `c` and the exponent `p` of the shortest decimal `c · 10 ^ p` that rounds to the
positive double `m · 2 ^ e`. -/
def shortest (m : Nat) (e : Int) : Nat × Int :=
  let k := decimalPoint (m * power 2 e) (power 2 (-e))
  ((List.range' 1 17).findSome? (gridHit m e k)).getD (m * power 5 (-e) * power 2 e, min e 0)

/-- How the digits of a double are laid out. -/
structure Layout where
  /-- The least decimal exponent that is written with plain digits. -/
  least : Int
  /-- The least decimal exponent, above zero, that is written with a power of ten. -/
  limit : Int
  /-- The least number of digits of a written power of ten. -/
  exponentDigits : Nat

/-- Plain digits from `10 ^ -4` up to, but not including, `10 ^ 16`. -/
def Layout.plain : Layout := ⟨-4, 16, 2⟩

/-- The digits of a decimal laid out, with a point and at least one digit after it unless a
power of ten is written. -/
def layOut (layout : Layout) (c : Nat) (p : Int) : List Char :=
  let ds := Nat.toDigits 10 c
  let point : Int := ds.length + p
  let exponent := point - 1
  if layout.least ≤ exponent && exponent < layout.limit then
    if point ≤ 0 then '0' :: '.' :: List.replicate (-point).toNat '0' ++ ds
    else if ds.length ≤ point.toNat then
      ds ++ List.replicate (point.toNat - ds.length) '0' ++ ['.', '0']
    else ds.take point.toNat ++ '.' :: ds.drop point.toNat
  else
    let es := Nat.toDigits 10 exponent.natAbs
    let fraction := if ds.length ≤ 1 then [] else '.' :: ds.drop 1
    ds.take 1 ++ fraction ++ 'e' :: (if exponent < 0 then '-' else '+') ::
      List.replicate (layout.exponentDigits - es.length) '0' ++ es

/-- Drops the zeros at the end of the digits. -/
def dropZeros : Nat → Nat → Int → Nat × Int
  | 0, c, p => (c, p)
  | fuel + 1, c, p => if c % 10 = 0 then dropZeros fuel (c / 10) (p + 1) else (c, p)

/-- The text of a finite double. -/
def finiteText (layout : Layout) (negative : Bool) (m : Nat) (e : Int) : List Char :=
  let digits :=
    if m = 0 then ['0', '.', '0']
    else
      let (c, p) := shortest m e
      let (c, p) := dropZeros 20 c p
      layOut layout c p
  if negative then '-' :: digits else digits

end Double

end ApiGraph
