import ApiGraph.Yaml.Cursor
import ApiGraph.Yaml.Flaw

/-! Texts that are set off by indentation. A literal one keeps its lines, a folded one joins
neighbouring lines that begin with no blank; a mark says what happens to the breaks at the end. -/

namespace ApiGraph.Yaml.Block

/-- What happens to the breaks at the end of a text. -/
inductive Ending where
  /-- None is kept. -/
  | strip
  /-- The first one is kept. -/
  | clip
  /-- All are kept. -/
  | keep
deriving DecidableEq

/-- What stands behind the mark of a text: its ending, and its indentation if that is given. -/
structure Header where
  ending : Ending
  indent : Option Nat

/-- The ending for a sign. -/
def ending? : Option Char → Option Ending
  | some '+' => some .keep
  | some '-' => some .strip
  | _ => none

/-- The indentation for a digit; there is none of zero. -/
def increment? (c? : Option Char) : Except Flaw (Option Nat) :=
  match c? with
  | some ch =>
    if ch == '0' then .error .malformed
    else if ch.isDigit then .ok (some (ch.toNat - '0'.toNat))
    else .ok none
  | none => .ok none

/-- The header that begins here and the place after it: a sign and a digit in either order. -/
def header (c : Cursor) : Except Flaw (Header × Cursor) := do
  match ending? c.peek with
  | some e =>
    match ← increment? (c.peekAt 1) with
    | some n => return (⟨e, some n⟩, c.advance 2)
    | none => return (⟨e, none⟩, c.advance 1)
  | none =>
    match ← increment? c.peek with
    | none => return (⟨.clip, none⟩, c)
    | some n =>
      match ending? (c.peekAt 1) with
      | some e => return (⟨e, some n⟩, c.advance 2)
      | none => return (⟨.clip, some n⟩, c.advance 1)

/-- The place after the rest of a line that holds nothing but a comment. -/
def restOfLine (c : Cursor) : Except Flaw Cursor :=
  let c := c.skipSpaces.skipComment
  if endsLine c.peek then .ok c.lineBreak.2 else .error .malformed

/-- The breaks from here on, the widest indentation of a line among them, and the place after
them. -/
def leading : Nat → Nat → Cursor → List Char × Nat × Cursor
  | 0, widest, c => ([], widest, c)
  | fuel + 1, widest, c =>
    match c.peek with
    | none => ([], widest, c)
    | some ch =>
      if ch == ' ' then
        let c := c.next
        leading fuel (max widest c.column) c
      else if isBreak ch then
        let (b, c) := c.lineBreak
        let (bs, widest, c) := leading fuel widest c
        (b ++ bs, widest, c)
      else ([], widest, c)

/-- The place after the spaces up to a column. -/
def skipTo (indent : Nat) (c : Cursor) : Cursor :=
  c.advance ((c.rest.take (indent - c.column)).takeWhile (· == ' ')).length

/-- The breaks from here on, with the indentation of the lines dropped. -/
def breaks (indent : Nat) : Nat → Cursor → List Char × Cursor
  | 0, c => ([], c)
  | fuel + 1, c =>
    let c := skipTo indent c
    if c.peek.any isBreak then
      let (b, c) := c.lineBreak
      let (bs, c) := breaks indent fuel c
      (b ++ bs, c)
    else ([], c)

/-- Whether a line of the text begins here. -/
def atLine (indent : Nat) (c : Cursor) : Bool := c.column == indent && c.peek.isSome

/-- Whether the next character is a blank. -/
def atBlank (c : Cursor) : Bool := c.peek == some ' ' || c.peek == some '\t'

/-- What two lines of a text have between them: the break after the first one, and the others. -/
def between (folded : Bool) (last blanks : List Char) (inner : Bool) : List Char :=
  if folded && last == ['\n'] && inner then if blanks.isEmpty then [' '] else blanks
  else last ++ blanks

/-- The end of a text. -/
def closing (ending : Ending) (last blanks : List Char) : List Char :=
  match ending with
  | .strip => []
  | .clip => last
  | .keep => last ++ blanks

/-- The lines from here on. -/
def lines (folded : Bool) (ending : Ending) (indent : Nat) : Nat → Cursor → List Char × Cursor
  | 0, c => ([], c)
  | fuel + 1, c =>
    let flush := !atBlank c
    let (line, c) := c.span fun ch => !isBreak ch
    let (last, c) := c.lineBreak
    let (blanks, c) := breaks indent (c.rest.length + 1) c
    if atLine indent c then
      let (more, after) := lines folded ending indent fuel c
      (line ++ between folded last blanks (flush && !atBlank c) ++ more, after)
    else (line ++ closing ending last blanks, c)

/-- The text after its mark, inside a block whose lines begin at the column `depth` or later. -/
def read (folded : Bool) (depth : Nat) (c : Cursor) : Except Flaw (List Char × Cursor) := do
  let (h, c) ← header c
  if !endsWord c.peek then throw .malformed
  let c ← restOfLine c
  let least := max 1 depth
  let fuel := c.rest.length + 1
  let (blanks, indent, c) :=
    match h.indent with
    | none =>
      let (blanks, widest, c) := leading fuel 0 c
      (blanks, max least widest, c)
    | some n =>
      let indent := least + n - 1
      let (blanks, c) := breaks indent fuel c
      (blanks, indent, c)
  if atLine indent c then
    let (text, c) := lines folded h.ending indent fuel c
    return (blanks ++ text, c)
  else return (closing h.ending [] blanks, c)

end ApiGraph.Yaml.Block
