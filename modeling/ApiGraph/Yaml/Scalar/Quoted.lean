import ApiGraph.Json.Reader
import ApiGraph.Yaml.Cursor
import ApiGraph.Yaml.Flaw

/-! Texts between quotes. Lines are folded; between double quotes a backslash begins an escape,
between single ones the quote itself is written twice. -/

namespace ApiGraph.Yaml.Quoted

/-- The characters of a text and the place after it, or what is wrong. -/
abbrev Reading := Except Flaw (List Char × Cursor)

/-- The character that an escape of one letter stands for. -/
def escape? : Char → Option Nat
  | '0' => some 0
  | 'a' => some 7
  | 'b' => some 8
  | 't' => some 9
  | '\t' => some 9
  | 'n' => some 10
  | 'v' => some 11
  | 'f' => some 12
  | 'r' => some 13
  | 'e' => some 27
  | ' ' => some 32
  | '"' => some 34
  | '\\' => some 92
  | '/' => some 47
  | 'N' => some 0x85
  | '_' => some 0xA0
  | 'L' => some 0x2028
  | 'P' => some 0x2029
  | _ => none

/-- The number of digits after a letter that begins an escape by code point. -/
def codeLength? : Char → Option Nat
  | 'x' => some 2
  | 'u' => some 4
  | 'U' => some 8
  | _ => none

/-- The character with a code point. A half of a pair stands for no character. -/
def ofCode (n : Nat) : Except Flaw Char :=
  if 0x80000000 ≤ n then .error (.value .overflow)
  else if 0x10FFFF < n then .error (.value .badValue)
  else if 0xD800 ≤ n ∧ n < 0xE000 then .ok (Char.ofNat 0xFFFD)
  else .ok (Char.ofNat n)

/-- The character whose code point is written from here on. -/
def code (length : Nat) (c : Cursor) : Except Flaw (Char × Cursor) :=
  let digits := c.rest.take length
  match digits.mapM Json.Reader.hexValue? with
  | none => .error .malformed
  | some ds =>
    if ds.length < length then .error .malformed
    else (ofCode (ds.foldl (fun n d => n * 16 + d) 0)).map (·, c.advance length)

/-- The breaks from here on, with the spaces before and between them dropped. -/
def breaks : Nat → Cursor → Reading
  | 0, c => .ok ([], c)
  | fuel + 1, c =>
    if c.atSeparator then .error .malformed
    else
      let c := c.skip fun ch => ch == ' ' || ch == '\t'
      if c.peek.any isBreak then do
        let (b, c) := c.lineBreak
        let (bs, c) ← breaks fuel c
        return (b ++ bs, c)
      else .ok ([], c)

/-- The spaces or the break that begin here. A single break reads as a space; of several, the
first one is dropped. -/
def gap (c : Cursor) : Reading :=
  let (spaces, c) := c.span fun ch => ch == ' ' || ch == '\t'
  match c.peek with
  | none => .error .malformed
  | some ch =>
    if isBreak ch then do
      let (first, c) := c.lineBreak
      let (rest, c) ← breaks (c.rest.length + 1) c
      if first ≠ ['\n'] then return (first ++ rest, c)
      else return (if rest.isEmpty then [' '] else rest, c)
    else .ok (spaces, c)

/-- What an escape stands for, after its backslash. -/
def escaped (c : Cursor) : Reading :=
  match c.peek with
  | none => .error .malformed
  | some ch =>
    match escape? ch, codeLength? ch with
    | some n, _ => .ok ([Char.ofNat n], c.next)
    | none, some length => do
      let (decoded, c) ← code length c.next
      return ([decoded], c)
    | none, none =>
      if isBreak ch then
        let (_, c) := c.lineBreak
        breaks (c.rest.length + 1) c
      else .error .malformed

/-- The text from here on up to the closing quote, after the pieces that were read. -/
def readFrom (double : Bool) : Nat → List (List Char) → Cursor → Reading
  | 0, _, _ => .error .malformed
  | fuel + 1, pieces, c =>
    match c.peek with
    | none => .error .malformed
    | some ch =>
      let quote := if double then '"' else '\''
      if ch == quote then
        if !double && c.peekAt 1 == some '\'' then
          readFrom double fuel (['\''] :: pieces) (c.advance 2)
        else .ok (pieces.reverse.flatten, c.next)
      else if double && ch == '\\' then do
        let (piece, c) ← escaped c.next
        readFrom double fuel (piece :: pieces) c
      else if endsMark (some ch) then do
        let (piece, c) ← gap c
        readFrom double fuel (piece :: pieces) c
      else readFrom double fuel ([ch] :: pieces) c.next

/-- The text after its opening quote. -/
def read (double : Bool) (c : Cursor) : Reading := readFrom double (c.rest.length + 1) [] c

end ApiGraph.Yaml.Quoted
