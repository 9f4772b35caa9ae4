import ApiGraph.Text.Printable

/-! Text between quotes, for messages. A single quote encloses the text unless the text holds one
and no double quote; what cannot be printed is written by its code point. -/

namespace ApiGraph.Text

/-- The mark that encloses a text. -/
def quoteMark (cs : List Char) : Char :=
  if cs.contains '\'' && !cs.contains '"' then '"' else '\''

/-- The last hexadecimal digits of a number, as many as asked for. -/
def hexDigits : Nat → Nat → List Char
  | 0, _ => []
  | k + 1, n => hexDigits k (n / 16) ++ [Nat.digitChar (n % 16)]

/-- One character between quotes. -/
def quotedChar (mark c : Char) : List Char :=
  if c = mark then ['\\', c]
  else if c = '\\' then ['\\', '\\']
  else if c = '\n' then ['\\', 'n']
  else if c = '\r' then ['\\', 'r']
  else if c = '\t' then ['\\', 't']
  else if isPrintable c then [c]
  else if c.toNat < 0x100 then '\\' :: 'x' :: hexDigits 2 c.toNat
  else if c.toNat < 0x10000 then '\\' :: 'u' :: hexDigits 4 c.toNat
  else '\\' :: 'U' :: hexDigits 8 c.toNat

/-- A text between quotes. -/
def quoted (cs : List Char) : List Char :=
  let mark := quoteMark cs
  mark :: cs.flatMap (quotedChar mark) ++ [mark]

/-- One byte between quotes. -/
def quotedByte (mark : Char) (b : UInt8) : List Char :=
  let c := Char.ofNat b.toNat
  if c = mark || c = '\\' then ['\\', c]
  else if c = '\n' then ['\\', 'n']
  else if c = '\r' then ['\\', 'r']
  else if c = '\t' then ['\\', 't']
  else if 32 ≤ b.toNat && b.toNat < 127 then [c]
  else '\\' :: 'x' :: hexDigits 2 b.toNat

/-- Bytes between quotes. -/
def quotedBytes (bytes : List UInt8) : List Char :=
  let mark := quoteMark (bytes.map fun b => Char.ofNat b.toNat)
  mark :: bytes.flatMap (quotedByte mark) ++ [mark]

theorem length_hexDigits (k n : Nat) : (hexDigits k n).length = k := by
  induction k generalizing n with
  | zero => rfl
  | succ k ih => simp [hexDigits, ih]

end ApiGraph.Text
