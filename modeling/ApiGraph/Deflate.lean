/-! Packed bytes. A packed text is a row of blocks: stored bytes, or symbols in codes of bits, which
are literal bytes and references back to bytes before them. What is cut off in the middle unpacks
to what comes before the cut; a flaw ends the reading with nothing. -/

namespace ApiGraph.Deflate

/-- What is wrong with packed bytes. -/
inductive Flaw where
  | header
  | blockType
  | storedSize
  | tooManySymbols
  | codeLengths
  | lengthRepeat
  | noEndOfBlock
  | literalLengths
  | distanceLengths
  | literal
  | distance
  | tooFarBack
  | checksum
deriving DecidableEq

/-- The flaw in words. -/
def Flaw.message : Flaw → String
  | .header => "incorrect header check"
  | .blockType => "invalid block type"
  | .storedSize => "invalid stored block lengths"
  | .tooManySymbols => "too many length or distance symbols"
  | .codeLengths => "invalid code lengths set"
  | .lengthRepeat => "invalid bit length repeat"
  | .noEndOfBlock => "invalid code -- missing end-of-block"
  | .literalLengths => "invalid literal/lengths set"
  | .distanceLengths => "invalid distances set"
  | .literal => "invalid literal/length code"
  | .distance => "invalid distance code"
  | .tooFarBack => "invalid distance too far back"
  | .checksum => "incorrect data check"

/-- Why a reading stops. -/
inductive Halt where
  /-- There are no more bits. -/
  | cut
  | flaw (f : Flaw)

/-- How far packed bytes were read: the bits that are left, and the bytes that came out. -/
structure Progress where
  bits : List Bool
  out : Array UInt8

/-- A step on the way. What came out before it stopped is kept. -/
abbrev Unpacking := ExceptT Halt (StateM Progress)

/-- The bits of bytes, the lowest bit of each byte first. -/
def bitsOf (bytes : List UInt8) : List Bool :=
  bytes.flatMap fun b => (List.range 8).map fun i => b.toNat.testBit i

/-- The number that bits write, the lowest bit first. -/
def natOf (bits : List Bool) : Nat := bits.foldr (fun b n => 2 * n + b.toNat) 0

/-- Ends the reading with a flaw. -/
def fail (f : Flaw) : Unpacking α := throw (.flaw f)

/-- Fails unless the test holds. -/
def require (holds : Bool) (f : Flaw) : Unpacking Unit := if holds then return else fail f

/-- The number that the next bits write. -/
def take (count : Nat) : Unpacking Nat := do
  let p ← get
  let bits := p.bits.take count
  if bits.length < count then throw .cut
  set { p with bits := p.bits.drop count }
  return natOf bits

/-- Goes on at the next whole byte. -/
def align : Unpacking Unit := modify fun p => { p with bits := p.bits.drop (p.bits.length % 8) }

/-- Adds a byte to what came out. -/
def emit (b : UInt8) : Unpacking Unit := modify fun p => { p with out := p.out.push b }

/-- Adds bytes that came out before, from a distance back on. -/
def copy (distance : Nat) : Nat → Unpacking Unit
  | 0 => return
  | count + 1 => do
    let out := (← get).out
    emit (out.getD (out.size - distance) 0)
    copy distance count

/-- A code of bits: how many symbols have a word of each length from one on, and the symbols in the
order of their words. -/
structure Code where
  counts : List Nat
  symbols : List Nat

namespace Code

/-- The greatest length of a word. -/
def maxLength : Nat := 15

/-- The code in which each symbol has a word of a length; zero is for symbols without a word. -/
def ofLengths (lengths : List Nat) : Code :=
  let steps := (List.range maxLength).map (· + 1)
  ⟨(steps.map fun n => lengths.count n).reverse.dropWhile (· == 0) |>.reverse,
    steps.flatMap fun n => (lengths.zipIdx.filter fun p => p.1 == n).map Prod.snd⟩

/-- How many words of the greatest length are left over; negative when there are too many words. -/
def spare (c : Code) : Int := c.counts.foldl (fun (left : Int) (n : Nat) => 2 * left - n) 1

/-- Whether every row of bits can be cut into words in one way at most; rows that cannot be cut at
all are possible only in a code with words of one bit, and in one without words. -/
def isSound (c : Code) : Bool := c.spare == 0 || (0 < c.spare && c.counts.length ≤ 1)

/-- Reads one more bit of a word and looks among the words of its length, of which there are as
many as the first number tells. `first` is the first word of that length, with as many words
before it as `index` tells. -/
def search (c : Code) : List Nat → Nat → Nat → Nat → Unpacking (Option Nat)
  | [], _, _, _ => return none
  | count :: longer, word, first, index => do
    let word := 2 * word + (← take 1)
    if word < first + count then return c.symbols[index + (word - first)]?
    else search c longer word (2 * (first + count)) (index + count)

/-- The symbol whose word comes next; none for bits that are no word. A code without words takes
one bit for that. -/
def next? (c : Code) : Unpacking (Option Nat) :=
  c.search (if c.counts.isEmpty then [0] else c.counts) 0 0 0

end Code

/-- The shortest length that each symbol for a length stands for, and the number of bits after it
that add to it. -/
def lengthRules : List (Nat × Nat) :=
  [(3, 0), (4, 0), (5, 0), (6, 0), (7, 0), (8, 0), (9, 0), (10, 0), (11, 1), (13, 1), (15, 1),
    (17, 1), (19, 2), (23, 2), (27, 2), (31, 2), (35, 3), (43, 3), (51, 3), (59, 3), (67, 4),
    (83, 4), (99, 4), (115, 4), (131, 5), (163, 5), (195, 5), (227, 5), (258, 0)]

/-- The same for the symbols for a distance. -/
def distanceRules : List (Nat × Nat) :=
  [(1, 0), (2, 0), (3, 0), (4, 0), (5, 1), (7, 1), (9, 2), (13, 2), (17, 3), (25, 3), (33, 4),
    (49, 4), (65, 5), (97, 5), (129, 6), (193, 6), (257, 7), (385, 7), (513, 8), (769, 8),
    (1025, 9), (1537, 9), (2049, 10), (3073, 10), (4097, 11), (6145, 11), (8193, 12), (12289, 12),
    (16385, 13), (24577, 13)]

/-- The symbol that ends a block. -/
def endOfBlock : Nat := 256

/-- The number that a rule and the bits after its symbol make up. -/
def extended (rule : Nat × Nat) : Unpacking Nat := return rule.1 + (← take rule.2)

/-- The rule for the next symbol of a code. -/
def ruleOf (rules : List (Nat × Nat)) (symbol : Option Nat) (f : Flaw) :
    Unpacking (Nat × Nat) :=
  match symbol.bind fun s => rules[s]? with
  | some rule => return rule
  | none => fail f

/-- The symbols of a block. The fuel bounds their number. -/
def symbols (literals distances : Code) : Nat → Unpacking Unit
  | 0 => throw .cut
  | fuel + 1 => do
    match ← literals.next? with
    | none => fail .literal
    | some s =>
      if s < endOfBlock then do
        emit (UInt8.ofNat s)
        symbols literals distances fuel
      else if s = endOfBlock then return
      else do
        let count ← extended (← ruleOf lengthRules (some (s - endOfBlock - 1)) .literal)
        let distance ← extended (← ruleOf distanceRules (← distances.next?) .distance)
        require (distance ≤ (← get).out.size) .tooFarBack
        copy distance count
        symbols literals distances fuel

/-- Some bytes as they are. -/
def stored : Nat → Unpacking Unit
  | 0 => return
  | count + 1 => do
    emit (UInt8.ofNat (← take 8))
    stored count

/-- A block of stored bytes: their number, the same with all bits flipped, and the bytes. -/
def storedBlock : Unpacking Unit := do
  align
  let both ← take 32
  let size := both % 65536
  require (size + both / 65536 == 65535) .storedSize
  stored size

/-- The code for literals and lengths that needs no description. -/
def plainLiterals : Code :=
  .ofLengths (List.replicate 144 8 ++ List.replicate 112 9 ++ List.replicate 24 7 ++
    List.replicate 8 8)

/-- The code for distances that needs no description. -/
def plainDistances : Code := .ofLengths (List.replicate 32 5)

/-- The order in which a description of codes gives the lengths of the words for lengths. -/
def lengthOrder : List Nat :=
  [16, 17, 18, 0, 8, 7, 9, 6, 10, 5, 11, 4, 12, 3, 13, 2, 14, 1, 15]

/-- The lengths of words up to a number of them, after those that were read. They come last first.
The fuel bounds the number of symbols. -/
def wordLengths (code : Code) (total : Nat) : Nat → List Nat → Unpacking (List Nat)
  | 0, _ => throw .cut
  | fuel + 1, read =>
    if total ≤ read.length then return read.reverse
    else do
      let s := (← code.next?).getD 0
      if s < 16 then wordLengths code total fuel (s :: read)
      else do
        let count ← extended (if s = 16 then (3, 2) else if s = 17 then (3, 3) else (11, 7))
        require (s ≠ 16 || !read.isEmpty) .lengthRepeat
        require (read.length + count ≤ total) .lengthRepeat
        let again := if s = 16 then read.headD 0 else 0
        wordLengths code total fuel (List.replicate count again ++ read)

/-- Some lengths of three bits each. -/
def shortLengths : Nat → Unpacking (List Nat)
  | 0 => return []
  | count + 1 => do
    let n ← take 3
    return n :: (← shortLengths count)

/-- A block that begins with a description of its codes. -/
def describedBlock : Unpacking Unit := do
  let literals := 257 + (← take 5)
  let distances := 1 + (← take 5)
  let described := 4 + (← take 4)
  require (literals ≤ 286 && distances ≤ 30) .tooManySymbols
  let given := lengthOrder.zip (← shortLengths described)
  let code := Code.ofLengths ((List.range 19).map fun s => (given.lookup s).getD 0)
  require (code.spare == 0 || code.counts.isEmpty) .codeLengths
  let lengths ← wordLengths code (literals + distances) (literals + distances + 1) []
  require (lengths.getD endOfBlock 0 ≠ 0) .noEndOfBlock
  let literalCode := Code.ofLengths (lengths.take literals)
  require literalCode.isSound .literalLengths
  let distanceCode := Code.ofLengths (lengths.drop literals)
  require distanceCode.isSound .distanceLengths
  symbols literalCode distanceCode ((← get).bits.length + 1)

/-- The blocks from here on, up to the last one. The fuel bounds their number. -/
def blocks : Nat → Unpacking Unit
  | 0 => throw .cut
  | fuel + 1 => do
    let mark ← take 3
    match mark / 2 with
    | 0 => storedBlock
    | 1 => symbols plainLiterals plainDistances ((← get).bits.length + 1)
    | 2 => describedBlock
    | _ => fail .blockType
    if mark % 2 = 0 then blocks fuel

/-- What comes out of some bytes by a way to read them. -/
def run (reading : Unpacking Unit) (bytes : List UInt8) : Except Flaw (List UInt8) :=
  match (ExceptT.run reading).run ⟨bitsOf bytes, #[]⟩ with
  | (.error (.flaw f), _) => .error f
  | (_, p) => .ok p.out.toList

/-- The bytes that blocks alone unpack to. -/
def unpackBlocks (bytes : List UInt8) : Except Flaw (List UInt8) :=
  run (blocks (8 * bytes.length + 1)) bytes

/-- Two sums over bytes that show whether they were damaged. -/
def checksum (bytes : List UInt8) : Nat :=
  let (a, b) := bytes.foldl
    (fun (p : Nat × Nat) x =>
      let a := (p.1 + x.toNat) % 65521
      (a, (p.2 + a) % 65521))
    (1, 0)
  b * 65536 + a

/-- The number that four bytes write, the highest one first. -/
def fourBytes : Unpacking Nat := do
  let a ← take 8
  let b ← take 8
  let c ← take 8
  return ((a * 256 + b) * 256 + c) * 256 + (← take 8)

/-- Blocks with a header before them and a checksum behind them. -/
def wrapped (size : Nat) : Unpacking Unit := do
  let both ← take 16
  let (first, second) := (both % 256, both / 256)
  require ((first * 256 + second) % 31 == 0 && first % 16 == 8 && first / 16 ≤ 7) .header
  if second / 32 % 2 = 1 then do
    let _ ← fourBytes
    fail .header
  blocks (8 * size + 1)
  align
  require ((← fourBytes) == checksum (← get).out.toList) .checksum

/-- The bytes that blocks unpack to, with or without a header. -/
def unpack (bytes : List UInt8) : Except Flaw (List UInt8) :=
  match run (wrapped bytes.length) bytes with
  | .ok out => .ok out
  | .error _ => unpackBlocks bytes

/-- The bytes that a packed file unpacks to: two bytes that mark it, ten bytes of header in all,
and blocks. -/
def unpackFile (bytes : List UInt8) : Except Flaw (List UInt8) :=
  match bytes with
  | 0x1f :: 0x8b :: _ => unpackBlocks (bytes.drop 10)
  | _ :: _ :: _ => .error .header
  | _ => .ok []

end ApiGraph.Deflate
