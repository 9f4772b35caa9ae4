import ApiGraph.Yaml.Property
import ApiGraph.Yaml.Scalar.Block
import ApiGraph.Yaml.Scalar.Plain
import ApiGraph.Yaml.Scalar.Quoted

/-! The tokens of a text. What stands before a colon becomes a key only when the colon is met, so
each place where a key could have begun is remembered; such a key has to end on its line, within
1024 characters. -/

namespace ApiGraph.Yaml

/-- A place where a key could have begun. -/
structure Candidate where
  /-- The number of tokens before it. -/
  tokens : Nat
  /-- Whether it has to be a key, as everything else on its column is. -/
  required : Bool
  start : Cursor

/-- How far a text has been cut into tokens. -/
structure Lexer where
  cursor : Cursor
  tokens : Array Token
  /-- The number of brackets that are open. -/
  flow : Nat
  /-- One more than the column of the innermost block, zero outside of all blocks. -/
  depth : Nat
  /-- The same for the blocks around it, from the inside out. -/
  outer : List Nat
  /-- Whether a key can begin here. -/
  keyAllowed : Bool
  /-- The last place for a key by the number of brackets around it. -/
  candidates : List (Nat × Candidate)
  /-- Whether all tokens were found. -/
  done : Bool

namespace Lexer

/-- A step on the way. -/
abbrev Step := Except Flaw Lexer

/-- The beginning of a text. -/
def start (text : String) : Lexer := ⟨.start text, #[], 0, 0, [], true, [], false⟩

/-- The longest key that needs no mark. -/
def maxKey : Nat := 1024

/-- Adds a token. -/
def push (l : Lexer) (t : Token) : Lexer := { l with tokens := l.tokens.push t }

/-- Adds a token and goes on after some characters. -/
def pushOver (l : Lexer) (t : Token) (n : Nat) : Lexer :=
  { l.push t with cursor := l.cursor.advance n }

/-- The place after the space, the comments and the breaks. A break allows a key again. -/
def skipGap : Nat → Lexer → Lexer
  | 0, l => l
  | fuel + 1, l =>
    let c := l.cursor.skipSpaces.skipComment
    if c.peek.any isBreak then
      skipGap fuel { l with cursor := c.lineBreak.2, keyAllowed := l.keyAllowed || l.flow == 0 }
    else { l with cursor := c }

/-- The place after the mark that may open a text. -/
def skipMark (l : Lexer) : Lexer :=
  if l.cursor.index == 0 && l.cursor.peek == some byteOrderMark then
    { l with cursor := l.cursor.next }
  else l

/-- Whether a key from a candidate on can end here. -/
def isOpen (l : Lexer) (k : Candidate) : Bool :=
  k.start.line == l.cursor.line && l.cursor.index - k.start.index ≤ maxKey

/-- Forgets the candidates that are too far back. -/
def dropStale (l : Lexer) : Step :=
  if l.candidates.any fun p => !l.isOpen p.2 && p.2.required then .error .malformed
  else .ok { l with candidates := l.candidates.filter fun p => l.isOpen p.2 }

/-- Forgets the candidate between the innermost brackets. -/
def dropCandidate (l : Lexer) : Step :=
  match l.candidates.lookup l.flow with
  | none => .ok l
  | some k =>
    if k.required then .error .malformed
    else .ok { l with candidates := l.candidates.filter fun p => p.1 != l.flow }

/-- Remembers that a key could begin here. -/
def saveCandidate (l : Lexer) : Step :=
  if !l.keyAllowed then .ok l
  else do
    let required := l.flow == 0 && l.depth == l.cursor.column + 1
    let l ← l.dropCandidate
    let k : Candidate := ⟨l.tokens.size, required, l.cursor⟩
    return { l with candidates := (l.flow, k) :: l.candidates }

/-- Closes blocks from the inside out while they are deeper than a depth. -/
def closeBlocks (target : Nat) (l : Lexer) : List Nat → Lexer
  | [] => l
  | d :: outer =>
    if target < l.depth then closeBlocks target { l.push .blockEnd with depth := d, outer } outer
    else l

/-- Closes the blocks that are deeper than a depth; between brackets indentation means nothing. -/
def unwind (target : Nat) (l : Lexer) : Lexer :=
  if l.flow == 0 then closeBlocks target l l.outer else l

/-- Opens a block at a column unless the innermost one is that deep, and tells whether it did. -/
def indent (l : Lexer) (column : Nat) : Bool × Lexer :=
  if l.depth < column + 1 then (true, { l with depth := column + 1, outer := l.depth :: l.outer })
  else (false, l)

/-- Opens a block here if there is none that is as deep. -/
def openBlock (l : Lexer) (t : Token) : Lexer :=
  let (opened, l) := l.indent l.cursor.column
  if opened then l.push t else l

/-- Closes everything before a mark that belongs to no document. -/
def leave (l : Lexer) : Step := do
  let l ← (l.unwind 0).dropCandidate
  return { l with keyAllowed := false }

/-- The end of the text. -/
def finish (l : Lexer) : Step := do
  let l ← l.leave
  return { l.push .streamEnd with candidates := [], done := true }

/-- A line before a document. -/
def directive (l : Lexer) : Step := do
  let l ← l.leave
  let (d, c) ← Property.directive l.cursor.next
  return { l.push (.directive d) with cursor := c }

/-- The mark of a document. -/
def documentMark (l : Lexer) (t : Token) : Step := do
  let l ← l.leave
  return l.pushOver t 3

/-- An opening bracket. -/
def flowStart (l : Lexer) (t : Token) : Step := do
  let l ← l.saveCandidate
  return { l.pushOver t 1 with flow := l.flow + 1, keyAllowed := true }

/-- A closing bracket. -/
def flowEnd (l : Lexer) (t : Token) : Step := do
  let l ← l.dropCandidate
  if l.flow = 0 then throw .malformed
  return { l.pushOver t 1 with flow := l.flow - 1, keyAllowed := false }

/-- A comma between brackets. -/
def comma (l : Lexer) : Step := do
  let l ← { l with keyAllowed := true }.dropCandidate
  return l.pushOver .comma 1

/-- The mark of an item. -/
def item (l : Lexer) : Step := do
  if l.flow == 0 && !l.keyAllowed then throw .malformed
  let l := if l.flow == 0 then l.openBlock .blockList else l
  let l ← { l with keyAllowed := true }.dropCandidate
  return l.pushOver .item 1

/-- The mark of a key. -/
def key (l : Lexer) : Step := do
  if l.flow == 0 && !l.keyAllowed then throw .malformed
  let l := if l.flow == 0 then l.openBlock .blockMap else l
  let l ← { l with keyAllowed := l.flow == 0 }.dropCandidate
  return l.pushOver .key 1

/-- Marks as a key what was read since a candidate. -/
def markKey (l : Lexer) (k : Candidate) : Lexer :=
  let (opened, l) := if l.flow == 0 then l.indent k.start.column else (false, l)
  let marks : Array Token := if opened then #[.blockMap, .key] else #[.key]
  let before := l.tokens.extract 0 k.tokens
  let since := l.tokens.extract k.tokens l.tokens.size
  { l with tokens := before ++ marks ++ since }

/-- The mark of a value. It makes a key of what began at the last candidate. -/
def value (l : Lexer) : Step := do
  match l.candidates.lookup l.flow with
  | some k =>
    let l := { l with candidates := l.candidates.filter fun p => p.1 != l.flow }
    return { l.markKey k with keyAllowed := false }.pushOver .value 1
  | none =>
    if l.flow == 0 && !l.keyAllowed then throw .malformed
    let l := if l.flow == 0 then l.openBlock .blockMap else l
    let l ← { l with keyAllowed := l.flow == 0 }.dropCandidate
    return l.pushOver .value 1

/-- A name, a type or a text that may begin a key. -/
def content (l : Lexer) (read : Lexer → Except Flaw (Token × Cursor)) : Step := do
  let l ← l.saveCandidate
  let (t, c) ← read l
  return { l.push t with cursor := c, keyAllowed := false }

/-- A text that is set off by indentation. -/
def block (l : Lexer) (folded : Bool) : Step := do
  let l ← { l with keyAllowed := true }.dropCandidate
  let (cs, c) ← Block.read folded l.depth l.cursor.next
  return { l.push (.scalar (String.ofList cs) false) with cursor := c }

/-- A text between quotes. -/
def quoted (l : Lexer) (double : Bool) : Step :=
  l.content fun l => do
    let (cs, c) ← Quoted.read double l.cursor.next
    return (.scalar (String.ofList cs) false, c)

/-- A text without quotes. -/
def plain (l : Lexer) : Step := do
  let l ← l.saveCandidate
  let r := Plain.read (0 < l.flow) l.depth l.cursor
  return { l.push (.scalar (String.ofList r.chars) true) with
    cursor := r.after, keyAllowed := r.crossed }

/-- The characters that begin no text without quotes. -/
def indicators : List Char :=
  ['-', '?', ':', ',', '[', ']', '\x7b', '\x7d', '#', '&', '*', '!', '|', '>', '\'', '"', '%',
    '@', Char.ofNat 96]

/-- Whether a text without quotes can begin with a character that another one follows. -/
def beginsPlain (flow : Nat) (ch : Char) (next : Option Char) : Bool :=
  (!endsMark (some ch) && !indicators.contains ch) ||
    (!endsMark next && (ch == '-' || (flow == 0 && (ch == '?' || ch == ':'))))

/-- The token that begins with a character. -/
def token (l : Lexer) (ch : Char) : Step :=
  let c := l.cursor
  let next := c.peekAt 1
  let flowing := 0 < l.flow
  if ch == '%' && c.column == 0 then l.directive
  else if c.column == 0 && c.atMark ['-', '-', '-'] then l.documentMark .documentStart
  else if c.column == 0 && c.atMark ['.', '.', '.'] then l.documentMark .documentEnd
  else if ch == '[' then l.flowStart .flowList
  else if ch == '\x7b' then l.flowStart .flowMap
  else if ch == ']' then l.flowEnd .flowListEnd
  else if ch == '\x7d' then l.flowEnd .flowMapEnd
  else if ch == ',' then l.comma
  else if ch == '-' && endsMark next then l.item
  else if ch == '?' && (flowing || endsMark next) then l.key
  else if ch == ':' && (flowing || endsMark next) then l.value
  else if ch == '*' then
    l.content fun l => (Property.nodeName l.cursor.next).map fun p => (.alias p.1, p.2)
  else if ch == '&' then
    l.content fun l => (Property.nodeName l.cursor.next).map fun p => (.anchor p.1, p.2)
  else if ch == '!' then
    l.content fun l => (Property.tag l.cursor).map fun p => (.tag p.1, p.2)
  else if ch == '|' && !flowing then l.block false
  else if ch == '>' && !flowing then l.block true
  else if ch == '\'' then l.quoted false
  else if ch == '"' then l.quoted true
  else if beginsPlain l.flow ch next then l.plain
  else .error .malformed

/-- The next tokens. -/
def step (l : Lexer) : Step := do
  let l ← (skipGap (l.cursor.rest.length + 1) l.skipMark).dropStale
  let l := l.unwind (l.cursor.column + 1)
  match l.cursor.peek with
  | none => l.finish
  | some ch => l.token ch

/-- The number of tokens that can be read before it is known what comes after all of them: those
before the first place where a key could have begun. -/
def settled (l : Lexer) : Nat :=
  ((l.candidates.filter fun p => l.isOpen p.2).map fun p => p.2.tokens).foldl min l.tokens.size

/-- All tokens from here on. A text that cannot be read on ends in a token that says so, after the
tokens that can be read without what cannot. -/
def run : Nat → Lexer → List Token
  | 0, l => l.tokens.toList
  | fuel + 1, l =>
    if l.done then l.tokens.toList
    else
      match l.step with
      | .ok l => run fuel l
      | .error flaw => ((l.tokens.extract 0 l.settled).push (.broken flaw)).toList

end Lexer

/-- The tokens of a text. -/
def Token.ofText (text : String) : List Token :=
  if text.toList.all isAllowed then
    (Lexer.start text).run (text.length + 2)
  else [.broken .malformed]

end ApiGraph.Yaml
