/-! The digest SHA-256 of FIPS 180-4: sixty-four rounds over blocks of sixteen words. -/

namespace ApiGraph.Sha256

/-- The first bits of the fractional parts of the cube roots of the first primes. -/
def roundConstants : List UInt32 := [
  0x428a2f98, 0x71374491, 0xb5c0fbcf, 0xe9b5dba5, 0x3956c25b, 0x59f111f1, 0x923f82a4, 0xab1c5ed5,
  0xd807aa98, 0x12835b01, 0x243185be, 0x550c7dc3, 0x72be5d74, 0x80deb1fe, 0x9bdc06a7, 0xc19bf174,
  0xe49b69c1, 0xefbe4786, 0x0fc19dc6, 0x240ca1cc, 0x2de92c6f, 0x4a7484aa, 0x5cb0a9dc, 0x76f988da,
  0x983e5152, 0xa831c66d, 0xb00327c8, 0xbf597fc7, 0xc6e00bf3, 0xd5a79147, 0x06ca6351, 0x14292967,
  0x27b70a85, 0x2e1b2138, 0x4d2c6dfc, 0x53380d13, 0x650a7354, 0x766a0abb, 0x81c2c92e, 0x92722c85,
  0xa2bfe8a1, 0xa81a664b, 0xc24b8b70, 0xc76c51a3, 0xd192e819, 0xd6990624, 0xf40e3585, 0x106aa070,
  0x19a4c116, 0x1e376c08, 0x2748774c, 0x34b0bcb5, 0x391c0cb3, 0x4ed8aa4a, 0x5b9cca4f, 0x682e6ff3,
  0x748f82ee, 0x78a5636f, 0x84c87814, 0x8cc70208, 0x90befffa, 0xa4506ceb, 0xbef9a3f7, 0xc67178f2]

/-- The eight working words. -/
structure Words where
  a : UInt32
  b : UInt32
  c : UInt32
  d : UInt32
  e : UInt32
  f : UInt32
  g : UInt32
  h : UInt32

/-- The words before the first block. -/
def Words.start : Words :=
  ⟨0x6a09e667, 0xbb67ae85, 0x3c6ef372, 0xa54ff53a, 0x510e527f, 0x9b05688c, 0x1f83d9ab, 0x5be0cd19⟩

/-- The words added one by one. -/
def Words.add (x y : Words) : Words :=
  ⟨x.a + y.a, x.b + y.b, x.c + y.c, x.d + y.d, x.e + y.e, x.f + y.f, x.g + y.g, x.h + y.h⟩

/-- The words in order. -/
def Words.toList (w : Words) : List UInt32 := [w.a, w.b, w.c, w.d, w.e, w.f, w.g, w.h]

/-- Rotation to the right. -/
def rotate (x : UInt32) (n : UInt32) : UInt32 := (x >>> n) ||| (x <<< (32 - n))

/-- One round with its constant and its word of the schedule. -/
def round (w : Words) (kx : UInt32 × UInt32) : Words :=
  let s1 := rotate w.e 6 ^^^ rotate w.e 11 ^^^ rotate w.e 25
  let choice := (w.e &&& w.f) ^^^ (~~~w.e &&& w.g)
  let t1 := w.h + s1 + choice + kx.1 + kx.2
  let s0 := rotate w.a 2 ^^^ rotate w.a 13 ^^^ rotate w.a 22
  let majority := (w.a &&& w.b) ^^^ (w.a &&& w.c) ^^^ (w.b &&& w.c)
  ⟨t1 + (s0 + majority), w.a, w.b, w.c, w.d + t1, w.e, w.f, w.g⟩

/-- The next word of the schedule after the last sixteen. -/
def nextWord (ws : Array UInt32) : UInt32 :=
  let n := ws.size
  let x := ws.getD (n - 15) 0
  let y := ws.getD (n - 2) 0
  let s0 := rotate x 7 ^^^ rotate x 18 ^^^ (x >>> 3)
  let s1 := rotate y 17 ^^^ rotate y 19 ^^^ (y >>> 10)
  ws.getD (n - 16) 0 + s0 + ws.getD (n - 7) 0 + s1

/-- The sixty-four words of the schedule of a block. -/
def schedule (block : List UInt32) : List UInt32 :=
  ((List.range 48).foldl (fun ws _ => ws.push (nextWord ws)) block.toArray).toList

/-- The working words after a block. -/
def compress (w : Words) (block : List UInt32) : Words :=
  w.add ((roundConstants.zip (schedule block)).foldl round w)

/-- The bytes of a number, the most significant first. -/
def bigEndian (count n : Nat) : List UInt8 :=
  ((List.range count).map fun i => UInt8.ofNat (n / Nat.pow 256 i)).reverse

/-- The message with its end mark, its filling and its length in bits. -/
def pad (bytes : List UInt8) : List UInt8 :=
  bytes ++ 0x80 :: List.replicate ((119 - bytes.length % 64) % 64) 0 ++
    bigEndian 8 (8 * bytes.length)

/-- Four bytes as a word. -/
def word (a b c d : UInt8) : UInt32 :=
  (a.toUInt32 <<< 24) ||| (b.toUInt32 <<< 16) ||| (c.toUInt32 <<< 8) ||| d.toUInt32

/-- Bytes as words. -/
def words : List UInt8 → List UInt32
  | a :: b :: c :: d :: rest => word a b c d :: words rest
  | _ => []

/-- Consecutive groups of sixteen words; the fuel bounds their number. -/
def blocks : Nat → List UInt32 → List (List UInt32)
  | 0, _ => []
  | _, [] => []
  | fuel + 1, ws => ws.take 16 :: blocks fuel (ws.drop 16)

/-- Two hexadecimal digits. -/
def hexByte (b : UInt8) : List Char := [Nat.digitChar (b.toNat / 16), Nat.digitChar (b.toNat % 16)]

/-- The digest of some bytes in hexadecimal. -/
def hex (bytes : List UInt8) : String :=
  let ws := words (pad bytes)
  let final := (blocks (ws.length + 1) ws).foldl compress .start
  String.ofList ((final.toList.flatMap fun w => bigEndian 4 w.toNat).flatMap hexByte)

/-- The digest of the UTF-8 form of a text in hexadecimal. -/
def ofText (s : String) : String := hex s.toUTF8.toList

end ApiGraph.Sha256
