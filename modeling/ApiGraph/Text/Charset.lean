import ApiGraph.Failure
import ApiGraph.Text.Charset.Page

/-! Encodings of text by their names, and the text that bytes encode. Bytes that encode nothing are
read as one character that says so. -/

namespace ApiGraph.Text

/-- The order of the bytes of a number. -/
inductive ByteOrder where
  | lowFirst
  | highFirst
deriving DecidableEq

/-- An encoding of text. -/
inductive Charset where
  /-- Each character has a byte. -/
  | page (p : Page)
  /-- Each character has one to four bytes. With `marked` a mark in front is left
  out, and so is the beginning of one that is all there is. -/
  | mixed (marked : Bool)
  /-- Each character has one or two units of two bytes; without an order a mark tells it. -/
  | pairs (order : Option ByteOrder)
  /-- Each character has four bytes; without an order a mark tells it. -/
  | quads (order : Option ByteOrder)
  /-- No encoding of text, but something else with a name. -/
  | other (misuse : Misuse)

namespace Charset

/-- The name of an encoding in small letters, with one underscore for whatever else than letters,
digits and points stands between those. -/
def normalize : List Char → List Char
  | [] => []
  | c :: rest =>
    let isPart (c : Char) : Bool := c.isAlphanum || c == '.'
    if isPart c then
      let gap :=
        match rest with
        | d :: more => !isPart d && more.any isPart
        | [] => false
      c.toLower :: (if gap then '_' :: normalize rest else normalize rest)
    else normalize rest

/-- The encodings with more than a byte for some characters: their own names, and other names. -/
def wide : List (List String × List String × Charset) :=
  [(["utf_8"], ["u8", "utf", "utf8", "utf8_ucs2", "utf8_ucs4", "cp65001"], .mixed false),
    (["utf_8_sig"], [], .mixed true),
    (["utf_16"], ["u16", "utf16"], .pairs none),
    (["utf_16_le"], ["unicodelittleunmarked", "utf_16le"], .pairs (some .lowFirst)),
    (["utf_16_be"], ["unicodebigunmarked", "utf_16be"], .pairs (some .highFirst)),
    (["utf_32"], ["u32", "utf32"], .quads none),
    (["utf_32_le"], ["utf_32le"], .quads (some .lowFirst)),
    (["utf_32_be"], ["utf_32be"], .quads (some .highFirst)),
    (["rot_13"], ["rot13"], .other .wrongType),
    (["idna", "undefined"], [], .other .notText),
    (["base64_codec", "bz2_codec", "hex_codec", "quopri_codec", "uu_codec", "zlib_codec"],
      ["base64", "base_64", "bz2", "hex", "quopri", "quoted_printable", "quotedprintable", "uu",
        "zip", "zlib"], .other .unforgiving)]

/-- All encodings with their own names and other names. -/
def all : List (List String × List String × Charset) :=
  wide ++ Page.all.map fun p => (p.names, p.synonyms, .page p)

/-- The encoding with a name. Points in other names can be written as underscores. -/
def ofName? (name : String) : Option Charset :=
  let key := String.ofList (normalize name.toList)
  let plain := String.ofList ((normalize name.toList).map fun c => if c == '.' then '_' else c)
  let found := ((all.find? fun p => p.2.1.contains key).or
    (all.find? fun p => p.2.1.contains plain)).or (all.find? fun p => p.1.contains key)
  found.map fun p => p.2.2

/-! Reading. -/

/-- The number that the last six bits of some bytes write, after another one. -/
def tailBits (n : Nat) (bytes : List UInt8) : Nat :=
  bytes.foldl (fun n b => n * 64 + b.toNat % 64) n

/-- How a character of more than one byte goes on after its first byte: how many bytes follow, and
the bounds of the first of them. -/
def tailOf? (b : UInt8) : Option (Nat × UInt8 × UInt8) :=
  if 0xC2 ≤ b && b ≤ 0xDF then some (1, 0x80, 0xBF)
  else if b = 0xE0 then some (2, 0xA0, 0xBF)
  else if b = 0xED then some (2, 0x80, 0x9F)
  else if 0xE1 ≤ b && b ≤ 0xEF then some (2, 0x80, 0xBF)
  else if b = 0xF0 then some (3, 0x90, 0xBF)
  else if 0xF1 ≤ b && b ≤ 0xF3 then some (3, 0x80, 0xBF)
  else if b = 0xF4 then some (3, 0x80, 0x8F)
  else none

/-- The bits of a first byte that count, by the number of bytes that follow it. -/
def headBits (b : UInt8) (count : Nat) : Nat :=
  b.toNat % (if count = 1 then 32 else if count = 2 then 16 else 8)

/-- The bytes from here on that go on with a character. -/
def tail (count : Nat) (least most : UInt8) : List UInt8 → List UInt8
  | [] => []
  | b :: rest =>
    if count ≠ 0 && least ≤ b && b ≤ most then
      b :: (rest.take (count - 1)).takeWhile fun b => 0x80 ≤ b && b ≤ 0xBF
    else []

/-- The characters of one to four bytes each. The fuel bounds the number of bytes. -/
def readMixed : Nat → List UInt8 → List Char
  | 0, _ => []
  | _, [] => []
  | fuel + 1, b :: rest =>
    if b < 0x80 then Char.ofNat b.toNat :: readMixed fuel rest
    else
      match tailOf? b with
      | none => Page.missing :: readMixed fuel rest
      | some (count, least, most) =>
        let more := tail count least most rest
        let c := if more.length = count then Char.ofNat (tailBits (headBits b count) more)
          else Page.missing
        c :: readMixed fuel (rest.drop more.length)

/-- Groups of bytes of one size; the last one may be shorter. The fuel bounds their number. -/
def groups (size : Nat) : Nat → List UInt8 → List (List UInt8)
  | 0, _ => []
  | _, [] => []
  | fuel + 1, bytes => bytes.take size :: groups size fuel (bytes.drop size)

/-- The number that bytes write in an order. -/
def number (order : ByteOrder) (bytes : List UInt8) : Nat :=
  (if order = .lowFirst then bytes.reverse else bytes).foldl (fun n b => n * 256 + b.toNat) 0

/-- The units that bytes write; none for what is cut off at the end. -/
def unitsOf (size : Nat) (order : ByteOrder) (bytes : List UInt8) : List (Option Nat) :=
  (groups size bytes.length bytes).map fun g =>
    if g.length = size then some (number order g) else none

/-- The characters of units of two bytes. A unit that needs another one is alone when that is
missing or of another kind; cut off at the end, it is missing together with what is left. -/
def readPairs : List (Option Nat) → List Char
  | [] => []
  | none :: rest => Page.missing :: readPairs rest
  | [some n] => [if 0xD800 ≤ n ∧ n < 0xE000 then Page.missing else Char.ofNat n]
  | some n :: none :: rest =>
    if 0xD800 ≤ n ∧ n < 0xDC00 then Page.missing :: readPairs rest
    else (if 0xDC00 ≤ n ∧ n < 0xE000 then Page.missing else Char.ofNat n) ::
      Page.missing :: readPairs rest
  | some n :: some m :: rest =>
    if 0xD800 ≤ n ∧ n < 0xDC00 then
      if 0xDC00 ≤ m ∧ m < 0xE000 then
        Char.ofNat (0x10000 + (n - 0xD800) * 0x400 + (m - 0xDC00)) :: readPairs rest
      else Page.missing :: readPairs (some m :: rest)
    else (if 0xDC00 ≤ n ∧ n < 0xE000 then Page.missing else Char.ofNat n) ::
      readPairs (some m :: rest)

/-- The character of a unit of four bytes. -/
def readQuad : Option Nat → Char
  | some n => if (0xD800 ≤ n ∧ n < 0xE000) ∨ 0x10FFFF < n then Page.missing else Char.ofNat n
  | none => Page.missing

/-- Reads bytes by the order that a mark of some size in front tells; without a mark, bytes enough
for one are refused. -/
def byMark (size : Nat) (read : ByteOrder → List UInt8 → List Char) (bytes : List UInt8) :
    Except Misuse (List Char) :=
  if number .lowFirst (bytes.take size) = 0xFEFF && size ≤ bytes.length then
    .ok (read .lowFirst (bytes.drop size))
  else if number .highFirst (bytes.take size) = 0xFEFF && size ≤ bytes.length then
    .ok (read .highFirst (bytes.drop size))
  else if size ≤ bytes.length then .error .notText
  else .ok (read .lowFirst bytes)

/-- The characters that bytes encode. -/
def chars (c : Charset) (bytes : List UInt8) : Except Misuse (List Char) :=
  let pairs (order : ByteOrder) (bytes : List UInt8) := readPairs (unitsOf 2 order bytes)
  let quads (order : ByteOrder) (bytes : List UInt8) := (unitsOf 4 order bytes).map readQuad
  match c with
  | .page p => .ok (p.decode bytes).toList
  | .mixed marked =>
    let bytes :=
      match bytes with
      | 0xEF :: 0xBB :: 0xBF :: rest => if marked then rest else bytes
      | [0xEF, 0xBB] | [0xEF] => if marked then [] else bytes
      | _ => bytes
    .ok (readMixed bytes.length bytes)
  | .pairs (some order) => .ok (pairs order bytes)
  | .pairs none => byMark 2 pairs bytes
  | .quads (some order) => .ok (quads order bytes)
  | .quads none => byMark 4 quads bytes
  | .other misuse => .error misuse

/-- The text that bytes encode. No bytes encode the empty text, in whatever way. -/
def decode (c : Charset) (bytes : List UInt8) : Except Misuse String :=
  if bytes.isEmpty then .ok "" else (c.chars bytes).map String.ofList

end Charset

end ApiGraph.Text
