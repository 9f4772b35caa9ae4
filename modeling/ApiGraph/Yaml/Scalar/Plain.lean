import ApiGraph.Yaml.Cursor

/-! Texts without quotes. They end at a comment, at a colon that ends a word, at a line that is
not indented enough, and between brackets also at the marks of a flow. Lines are folded. -/

namespace ApiGraph.Yaml.Plain

/-- The marks that end a text between brackets. -/
def flowMarks : List Char := [',', '?', '[', ']', '\x7b', '\x7d']

/-- The marks before which a colon between brackets is one. -/
def colonMarks : List Char := [',', '[', ']', '\x7b', '\x7d']

/-- Whether a text ends before a character that another one follows. -/
def endsBefore (flow : Bool) (c : Char) (next : Option Char) : Bool :=
  endsMark (some c) ||
    (c == ':' && (endsMark next || (flow && next.any colonMarks.contains))) ||
    (flow && flowMarks.contains c)

/-- The characters of a text up to a space or its end. -/
def word (flow : Bool) : List Char → List Char
  | [] => []
  | c :: rest => if endsBefore flow c rest.head? then [] else c :: word flow rest

/-- What stands between two words of a text. -/
structure Gap where
  /-- What the gap reads as; nothing if the text ends here. -/
  chars : List Char
  /-- Whether the gap goes over the end of a line. -/
  crossed : Bool
  after : Cursor

/-- The breaks and spaces from here on. No text follows if a document ends between them. -/
def breaks : Nat → Cursor → Option (List Char) × Cursor
  | 0, c => (some [], c)
  | fuel + 1, c =>
    match c.peek with
    | none => (some [], c)
    | some ch =>
      if ch == ' ' then breaks fuel c.next
      else if isBreak ch then
        let (b, c) := c.lineBreak
        if c.atSeparator then (none, c)
        else
          let (bs, c) := breaks fuel c
          (bs.map (b ++ ·), c)
      else (some [], c)

/-- A single break reads as a space; of several, the first one is dropped. -/
def fold (first rest : List Char) : List Char :=
  if first ≠ ['\n'] then first ++ rest else if rest.isEmpty then [' '] else rest

/-- The gap that begins here. -/
def gap (c : Cursor) : Gap :=
  let (spaces, c) := c.span (· == ' ')
  if c.peek.any isBreak then
    let (first, c) := c.lineBreak
    if c.atSeparator then ⟨[], true, c⟩
    else
      match breaks (c.rest.length + 1) c with
      | (none, c) => ⟨[], true, c⟩
      | (some rest, c) => ⟨fold first rest, true, c⟩
  else ⟨spaces, false, c⟩

/-- A text, whether a line ended just before its end, and the place after it. -/
structure Result where
  chars : List Char
  crossed : Bool
  after : Cursor

/-- The words from here on, after a gap. Lines that go on with the text begin at the column
`indent` or later. -/
def words (flow : Bool) (indent : Nat) : Nat → Gap → Result
  | 0, g => ⟨[], g.crossed, g.after⟩
  | fuel + 1, g =>
    let w := if g.after.peek == some '#' then [] else word flow g.after.rest
    if w.isEmpty then ⟨[], g.crossed, g.after⟩
    else
      let next := gap (g.after.advance w.length)
      if next.chars.isEmpty || next.after.peek == some '#' ||
          (!flow && next.after.column < indent) then
        ⟨g.chars ++ w, next.crossed, next.after⟩
      else
        let more := words flow indent fuel next
        ⟨g.chars ++ w ++ more.chars, more.crossed, more.after⟩

/-- The text that begins here. -/
def read (flow : Bool) (indent : Nat) (c : Cursor) : Result :=
  words flow indent (c.rest.length + 1) ⟨[], false, c⟩

end ApiGraph.Yaml.Plain
