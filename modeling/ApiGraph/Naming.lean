import ApiGraph.Text.Blank
import ApiGraph.Text.Upper
import ApiGraph.Text.Words

/-! Names for types, payloads and operations that have none of their own. Every name is a
function of the description alone, so reading the same description twice gives the same
names. -/

namespace ApiGraph.Naming

open Text

/-- Whether the character separates words: ASCII space, dash or underscore. -/
def isSeparator (c : Char) : Bool := isAsciiBlank c || c == '-' || c == '_'

/-- Drops each separator in front of a word character and capitalises that character. -/
def humps : List Char → List Char
  | [] => []
  | [c] => [c]
  | c :: d :: rest =>
    if isSeparator c && isWord d then d.toUpper :: humps rest else c :: humps (d :: rest)

/-- Words run together, each but the first with a capital; a capital in front becomes small. -/
def camelCase : List Char → List Char
  | [] => []
  | c :: rest => if c.isUpper then c.toLower :: humps rest else humps (c :: rest)

/-- Words run together, each with a capital. -/
def pascalCase : List Char → List Char
  | [] => []
  | cs => humps (' ' :: cs)

/-- The text with its first character in upper case. -/
def upperFirst : List Char → List Char
  | [] => []
  | c :: rest => upperChar c ++ rest

/-- Replaces each run of other characters than ASCII letters and digits: by the capital of the
small letter after it, or by a space. -/
def closeGaps (inGap : Bool) : List Char → List Char
  | [] => if inGap then [' '] else []
  | c :: rest =>
    if c.isAlphanum then
      if inGap then
        if c.isLower then c.toUpper :: closeGaps false rest else ' ' :: c :: closeGaps false rest
      else c :: closeGaps false rest
    else closeGaps true rest

/-- The part of a name that tells a media type. -/
def mediaTypePart : List Char → List Char
  | [] => []
  | cs => trim (pascalCase (closeGaps false cs))

/-- The last segment of a path that is not empty, without template braces. -/
def lastSegment (path : List Char) : List Char :=
  (((split '/' path).filter (!·.isEmpty)).getLast?.getD []).filter fun c => c ≠ '\x7b' ∧ c ≠ '\x7d'

/-- The name of a payload: tag, last path segment, verb, media type and status, of which empty
parts are left out and repeated ones kept once. -/
def response (tag path verb mediaType status : List Char) : List Char :=
  let parts := [pascalCase tag, pascalCase (lastSegment path), pascalCase verb,
    mediaTypePart mediaType, pascalCase status]
  keepWords (parts.filter (!·.isEmpty)).eraseDups.flatten

/-- Replaces each run of characters that are neither word characters nor white space nor dashes
by a space. -/
def spaceOut (inRun : Bool) : List Char → List Char
  | [] => []
  | c :: rest =>
    if isWord c || isBlank c || c == '-' then c :: spaceOut false rest
    else if inRun then spaceOut true rest
    else ' ' :: spaceOut true rest

/-- The verb and the path segments without braces, separated by spaces. -/
def verbAndPath (verb path : List Char) : List Char :=
  join [' '] (verb ::
    ((split '/' path).filter (!·.isEmpty)).map (trimBy fun c => c == '\x7b' || c == '\x7d'))

/-- The name of an operation: after its identifier when that is not empty, else after its verb
and path. -/
def method (operationId verb path : List Char) : List Char :=
  let source := if operationId.isEmpty then verbAndPath verb path else operationId
  keepWords (pascalCase (spaceOut false source))

/-- The name of a parameter: after its location and declared name. -/
def parameter (location name : List Char) : List Char :=
  keepWords (pascalCase (location ++ ' ' :: name))

/-- The name of a nested model: after its parent and the member that holds it. -/
def nested (parent member : List Char) : List Char := parent ++ keepWords (upperFirst member)

theorem isWord_of_mem_response {tag path verb mediaType status : List Char} {c : Char}
    (h : c ∈ response tag path verb mediaType status) : isWord c = true :=
  keepWords_isWord h

theorem isWord_of_mem_method {operationId verb path : List Char} {c : Char}
    (h : c ∈ method operationId verb path) : isWord c = true :=
  keepWords_isWord h

theorem isWord_of_mem_parameter {location name : List Char} {c : Char}
    (h : c ∈ parameter location name) : isWord c = true :=
  keepWords_isWord h

end ApiGraph.Naming
