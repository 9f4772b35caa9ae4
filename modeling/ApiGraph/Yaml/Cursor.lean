/-! Places in a text that is read line by line: what is left of the text, and the line and the
column where that begins. -/

namespace ApiGraph.Yaml

/-- A place in a text. -/
structure Cursor where
  rest : List Char
  index : Nat
  line : Nat
  column : Nat

/-- The mark that may open a text and has no width. -/
def byteOrderMark : Char := Char.ofNat 0xFEFF

/-- Whether the character ends a line. -/
def isBreak (c : Char) : Bool :=
  c == '\n' || c == '\r' || [0x85, 0x2028, 0x2029].contains c.toNat

/-- Whether a line ends here: at a break or at the end of the text. -/
def endsLine (c? : Option Char) : Bool := c?.all isBreak

/-- Whether a word ends here: at a space or at the end of a line. -/
def endsWord (c? : Option Char) : Bool := c?.all fun c => c == ' ' || isBreak c

/-- Whether an indicator ends here: where a word does, or at a tab. -/
def endsMark (c? : Option Char) : Bool := c?.all fun c => c == ' ' || c == '\t' || isBreak c

/-- Whether the character may stand in the text of a document at all. -/
def isAllowed (c : Char) : Bool :=
  let n := c.toNat
  n == 9 || n == 10 || n == 13 || n == 0x85 || (0x20 ≤ n && n ≤ 0x7E) ||
    (0xA0 ≤ n && n ≤ 0xD7FF) || (0xE000 ≤ n && n ≤ 0xFFFD) || 0x10000 ≤ n

namespace Cursor

/-- The beginning of a text. -/
def start (text : String) : Cursor := ⟨text.toList, 0, 0, 0⟩

/-- The next character. -/
def peek (c : Cursor) : Option Char := c.rest.head?

/-- The character after some others. -/
def peekAt (c : Cursor) (n : Nat) : Option Char := c.rest[n]?

/-- The place after one character. A return before a line feed does not end the line yet. -/
def next (c : Cursor) : Cursor :=
  match c.rest with
  | [] => c
  | ch :: rest =>
    if isBreak ch && !(ch == '\r' && rest.head? == some '\n') then
      ⟨rest, c.index + 1, c.line + 1, 0⟩
    else if ch == byteOrderMark then ⟨rest, c.index + 1, c.line, c.column⟩
    else ⟨rest, c.index + 1, c.line, c.column + 1⟩

/-- The place after some characters. -/
def advance : Nat → Cursor → Cursor
  | 0, c => c
  | n + 1, c => advance n c.next

/-- The characters from here on that satisfy a test, and the place after them. -/
def span (c : Cursor) (p : Char → Bool) : List Char × Cursor :=
  let taken := c.rest.takeWhile p
  (taken, advance taken.length c)

/-- The place after the characters that satisfy a test. -/
def skip (c : Cursor) (p : Char → Bool) : Cursor := (c.span p).2

/-- The place after the spaces. -/
def skipSpaces (c : Cursor) : Cursor := c.skip (· == ' ')

/-- The place after the comment, if there is one. -/
def skipComment (c : Cursor) : Cursor :=
  if c.peek == some '#' then c.skip fun ch => !isBreak ch else c

/-- The break that stands here and the place after it. Every break reads as a line feed but for
the two separators of Unicode, which stay. -/
def lineBreak (c : Cursor) : List Char × Cursor :=
  match c.rest with
  | '\r' :: '\n' :: _ => (['\n'], advance 2 c)
  | ch :: _ =>
    if isBreak ch then ([if ch.toNat = 0x2028 || ch.toNat = 0x2029 then ch else '\n'], c.next)
    else ([], c)
  | [] => ([], c)

/-- Whether a line that is nothing but a mark of a document begins here, or the line ends in one
of the marks. -/
def atMark (c : Cursor) (mark : List Char) : Bool :=
  mark.isPrefixOf c.rest && endsMark (c.peekAt mark.length)

/-- Whether the text of one document ends here. -/
def atSeparator (c : Cursor) : Bool := c.atMark ['-', '-', '-'] || c.atMark ['.', '.', '.']

end Cursor

end ApiGraph.Yaml
