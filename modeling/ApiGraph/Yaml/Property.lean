import ApiGraph.Json.Reader
import ApiGraph.Number.Integer
import ApiGraph.Yaml.Cursor
import ApiGraph.Yaml.Token

/-! What can stand before a node or a document: names of nodes, types of nodes, and directives. -/

namespace ApiGraph.Yaml.Property

/-- Whether the character may be part of a name. -/
def isNameChar (c : Char) : Bool := c.isAlphanum || c == '-' || c == '_'

/-- Fails unless the test holds. -/
def require (holds : Bool) : Except Flaw Unit := if holds then .ok () else .error .malformed

/-- The name that begins here; it has a character at least. -/
def name (c : Cursor) : Except Flaw (String × Cursor) := do
  let (cs, c) := c.span isNameChar
  require !cs.isEmpty
  return (String.ofList cs, c)

/-- The name of a node after its mark. -/
def nodeName (c : Cursor) : Except Flaw (String × Cursor) := do
  let (n, c) ← name c
  let closes := ['?', ':', ',', ']', '\x7d', '%', '@', Char.ofNat 96]
  require (endsMark c.peek || c.peek.any closes.contains)
  return (n, c)

/-- Whether the character may be part of the name of a type. -/
def isTypeChar (c : Char) : Bool :=
  c.isAlphanum || "-;/?:@&=+$,_.!~*'()[]".toList.contains c

/-- The bytes that are written with two digits after a percent sign each. -/
def escapedBytes : Nat → List UInt8 → Cursor → Except Flaw (List UInt8 × Cursor)
  | 0, acc, c => .ok (acc.reverse, c)
  | fuel + 1, acc, c =>
    match c.rest with
    | '%' :: a :: b :: _ =>
      match Json.Reader.hexValue? a, Json.Reader.hexValue? b with
      | some x, some y => escapedBytes fuel (UInt8.ofNat (x * 16 + y) :: acc) (c.advance 3)
      | _, _ => .error .malformed
    | '%' :: _ => .error .malformed
    | _ => .ok (acc.reverse, c)

/-- The text that some bytes encode. -/
def decoded (bs : List UInt8) : Except Flaw (List Char) :=
  match String.fromUTF8? ⟨bs.toArray⟩ with
  | some s => .ok s.toList
  | none => .error .malformed

/-- The pieces of the name of a type from here on. -/
def typePieces : Nat → Cursor → Except Flaw (List Char × Cursor)
  | 0, c => .ok ([], c)
  | fuel + 1, c =>
    match c.peek with
    | none => .ok ([], c)
    | some ch =>
      if ch == '%' then do
        let (bs, c) ← escapedBytes (c.rest.length + 1) [] c
        let piece ← decoded bs
        let (more, c) ← typePieces fuel c
        return (piece ++ more, c)
      else if isTypeChar ch then do
        let (more, c) ← typePieces fuel c.next
        return (ch :: more, c)
      else .ok ([], c)

/-- The name of a type, or the end of one, that begins here; it has a character at least. -/
def typeText (c : Cursor) : Except Flaw (String × Cursor) := do
  require (c.peek.any fun ch => ch == '%' || isTypeChar ch)
  let (cs, c) ← typePieces (c.rest.length + 1) c
  return (String.ofList cs, c)

/-- The handle that begins here: an exclamation mark, or a name between two of them. -/
def handle (c : Cursor) : Except Flaw (String × Cursor) := do
  require (c.peek == some '!')
  if c.peekAt 1 == some ' ' then return ("!", c.next)
  let (cs, c') := c.next.span isNameChar
  require (c'.peek == some '!')
  return (String.ofList ('!' :: cs ++ ['!']), c'.next)

/-- Whether the word from here on has a second exclamation mark. -/
def hasHandle (cs : List Char) : Bool :=
  (cs.drop 1).takeWhile (fun c => !endsWord (some c)) |>.contains '!'

/-- The type that begins here. -/
def tag (c : Cursor) : Except Flaw (TagName × Cursor) := do
  let (found, c) ←
    if c.peekAt 1 == some '<' then do
      let (t, c) ← typeText (c.advance 2)
      require (c.peek == some '>')
      pure (⟨none, t⟩, c.next)
    else if endsMark (c.peekAt 1) then pure (⟨none, "!"⟩, c.next)
    else if hasHandle c.rest then do
      let (h, c) ← handle c
      let (t, c) ← typeText c
      pure (⟨some h, t⟩, c)
    else do
      let (t, c) ← typeText c.next
      pure (⟨some "!", t⟩, c)
  require (endsWord c.peek)
  return (found, c)

/-- The number that begins here; it has a digit at least, and no more than a number may have. -/
def number (c : Cursor) : Except Flaw (Nat × Cursor) := do
  let (ds, c) := c.span Char.isDigit
  require !ds.isEmpty
  if Integer.maxDigits < ds.length then throw (.value .badValue)
  return (Json.Reader.natOf ds, c)

/-- The two numbers of a version, of which the first one counts. -/
def version (c : Cursor) : Except Flaw (Directive × Cursor) := do
  let (major, c) ← number c.skipSpaces
  require (c.peek == some '.')
  let (_, c) ← number c.next
  require (endsWord c.peek)
  return (.version major, c)

/-- A handle and what it stands for. -/
def handleRule (c : Cursor) : Except Flaw (Directive × Cursor) := do
  let (h, c) ← handle c.skipSpaces
  require (c.peek == some ' ')
  let (t, c) ← typeText c.skipSpaces
  require (endsWord c.peek)
  return (.handle h t, c)

/-- The directive after its mark, with the rest of its line. -/
def directive (c : Cursor) : Except Flaw (Directive × Cursor) := do
  let (n, c) ← name c
  require (endsWord c.peek)
  let (d, c) ←
    match n with
    | "YAML" => version c
    | "TAG" => handleRule c
    | _ => pure (.other, c.skip fun ch => !isBreak ch)
  let c := c.skipSpaces.skipComment
  require (endsLine c.peek)
  return (d, c.lineBreak.2)

end ApiGraph.Yaml.Property
