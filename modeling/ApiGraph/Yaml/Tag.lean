/-! The types of nodes, and the type of a plain text that is marked with none. -/

namespace ApiGraph.Yaml

/-- The type of a node. -/
inductive Tag where
  | null
  | bool
  | int
  | float
  | binary
  | timestamp
  | text
  | list
  | map
  | set
  | orderedMap
  | pairs
  | merge
  | default
  | unknown
deriving DecidableEq

namespace Tag

/-- What the names of the known types begin with. -/
def space : String := "tag:yaml.org,2002:"

/-- The known types by their names. -/
def known : List (String × Tag) :=
  [("null", null), ("bool", bool), ("int", int), ("float", float), ("binary", binary),
    ("timestamp", timestamp), ("str", text), ("seq", list), ("map", map), ("set", set),
    ("omap", orderedMap), ("pairs", pairs), ("merge", merge), ("value", default)]

/-- The type with a full name. -/
def ofName (name : String) : Tag :=
  ((known.find? fun p => space ++ p.1 == name).map Prod.snd).getD unknown

/-- Whether nodes of the type hold other nodes. -/
def isCollection : Tag → Bool
  | list | map | set | orderedMap | pairs => true
  | _ => false

/-- Whether nodes of the type hold a text. -/
def isText : Tag → Bool
  | null | bool | int | float | binary | timestamp | text => true
  | _ => false

/-! The texts of each type. A sign is one of two characters; underscores may stand between the
digits. -/

/-- Drops the sign in front. -/
def dropSign : List Char → List Char
  | '+' :: rest => rest
  | '-' :: rest => rest
  | cs => cs

/-- Whether the character is a digit or an underscore. -/
def isDigitOrUnderscore (c : Char) : Bool := c.isDigit || c == '_'

/-- What is left after a digit and further digits or underscores. -/
def afterDigits? : List Char → Option (List Char)
  | c :: rest => if c.isDigit then some (rest.dropWhile isDigitOrUnderscore) else none
  | [] => none

/-- Whether nothing is left, or a power of ten with its sign. -/
def isPower : List Char → Bool
  | [] => true
  | e :: sign :: d :: rest =>
    (e == 'e' || e == 'E') && (sign == '-' || sign == '+') && (d :: rest).all Char.isDigit
  | _ => false

/-- What is left after a number below sixty, if one stands after a colon. -/
def afterSixtieth? : List Char → Option (List Char)
  | ':' :: c :: d :: rest =>
    if '0' ≤ c ∧ c ≤ '5' ∧ d.isDigit then some rest
    else if c.isDigit then some (d :: rest)
    else none
  | [':', c] => if c.isDigit then some [] else none
  | _ => none

/-- What is left after as many sixtieths as there are. -/
def afterSixtieths : Nat → List Char → List Char
  | 0, cs => cs
  | fuel + 1, cs =>
    match afterSixtieth? cs with
    | some rest => afterSixtieths fuel rest
    | none => cs

/-- Whether the text is a truth value. -/
def isBool (cs : List Char) : Bool :=
  ["yes", "Yes", "YES", "no", "No", "NO", "true", "True", "TRUE", "false", "False", "FALSE",
    "on", "On", "ON", "off", "Off", "OFF"].contains (String.ofList cs)

/-- Whether the text is a fraction to the base ten. -/
def isDecimal (cs : List Char) : Bool :=
  match afterDigits? (dropSign cs) with
  | some ('.' :: rest) => isPower (rest.dropWhile isDigitOrUnderscore)
  | _ =>
    match cs with
    | '.' :: rest => ((afterDigits? rest).map isPower).getD false
    | _ => false

/-- Whether the text is a fraction to the base sixty. -/
def isSexagesimalFraction (cs : List Char) : Bool :=
  match afterDigits? (dropSign cs) with
  | some (':' :: rest) =>
    match afterSixtieths rest.length (':' :: rest) with
    | '.' :: rest => rest.all isDigitOrUnderscore
    | _ => false
  | _ => false

/-- Whether the text is a double. -/
def isFloat (cs : List Char) : Bool :=
  isDecimal cs || isSexagesimalFraction cs ||
    [".inf", ".Inf", ".INF"].contains (String.ofList (dropSign cs)) ||
    [".nan", ".NaN", ".NAN"].contains (String.ofList cs)

/-- Whether the text is an integer to the base two, eight, ten, sixteen or sixty. -/
def isInt (cs : List Char) : Bool :=
  match dropSign cs with
  | '0' :: 'b' :: rest => !rest.isEmpty && rest.all fun c => c == '0' || c == '1' || c == '_'
  | '0' :: 'x' :: rest =>
    !rest.isEmpty && rest.all fun c =>
      c.isDigit || ('a' ≤ c && c ≤ 'f') || ('A' ≤ c && c ≤ 'F') || c == '_'
  | '0' :: rest => rest.all fun c => ('0' ≤ c && c ≤ '7') || c == '_'
  | cs =>
    match afterDigits? cs with
    | none => false
    | some rest => (afterSixtieths rest.length rest).isEmpty

/-- Whether the text is one of the spellings of nothing. -/
def isNull (cs : List Char) : Bool :=
  ["~", "null", "Null", "NULL", ""].contains (String.ofList cs)

/-- What is left after digits whose number lies between two bounds. -/
def afterCount? (least most : Nat) (cs : List Char) : Option (List Char) :=
  let n := min most (cs.takeWhile Char.isDigit).length
  if least ≤ n then some (cs.drop n) else none

/-- What is left after a character. -/
def after? (c : Char) : List Char → Option (List Char)
  | d :: rest => if c = d then some rest else none
  | [] => none

/-- Whether the character is a space or a tab. -/
def isInlineBlank (c : Char) : Bool := c == ' ' || c == '\t'

/-- What is left after the mark between a day and a time of day. -/
def afterTimeMark? : List Char → Option (List Char)
  | c :: rest =>
    if c = 'T' ∨ c = 't' then some rest
    else if isInlineBlank c then some (rest.dropWhile isInlineBlank)
    else none
  | [] => none

/-- Whether nothing is left, or a zone. -/
def isZone (cs : List Char) : Bool :=
  match cs.dropWhile isInlineBlank with
  | [] => cs.isEmpty
  | ['Z'] => true
  | sign :: rest =>
    (sign == '+' || sign == '-') &&
      ((afterCount? 1 2 rest).any fun rest => rest.isEmpty ||
        ((after? ':' rest).bind (afterCount? 2 2)).any List.isEmpty)

/-- What is left after the fraction of a second, if there is one. -/
def afterFraction : List Char → List Char
  | '.' :: rest => rest.dropWhile Char.isDigit
  | cs => cs

/-- Whether the text is a day with all its digits. -/
def isDay (cs : List Char) : Bool :=
  Option.isSome do
    let cs ← after? '-' (← afterCount? 4 4 cs)
    let cs ← after? '-' (← afterCount? 2 2 cs)
    let cs ← afterCount? 2 2 cs
    guard cs.isEmpty

/-- Whether the text is a day with a time of day. -/
def isMoment (cs : List Char) : Bool :=
  Option.isSome do
    let cs ← after? '-' (← afterCount? 4 4 cs)
    let cs ← after? '-' (← afterCount? 1 2 cs)
    let cs ← afterTimeMark? (← afterCount? 1 2 cs)
    let cs ← after? ':' (← afterCount? 1 2 cs)
    let cs ← after? ':' (← afterCount? 2 2 cs)
    let cs ← afterCount? 2 2 cs
    guard (isZone (afterFraction cs))

/-- Drops one line feed at the end, unless it is all there is. -/
def dropLastBreak (cs : List Char) : List Char :=
  if 1 < cs.length && cs.getLast? = some '\n' then cs.dropLast else cs

/-- Whether the text is of a form, but perhaps for a line feed at its end. -/
def fits (p : List Char → Bool) (cs : List Char) : Bool := p (dropLastBreak cs)

/-- The type of a plain text. -/
def ofPlain (cs : List Char) : Tag :=
  if fits isBool cs then bool
  else if fits isFloat cs then float
  else if fits isInt cs then int
  else if fits (· == ['<', '<']) cs then merge
  else if fits isNull cs then null
  else if fits (fun cs => isDay cs || isMoment cs) cs then timestamp
  else if fits (· == ['=']) cs then default
  else if fits (fun cs => [['!'], ['&'], ['*']].contains cs) cs then unknown
  else text

end Tag

end ApiGraph.Yaml
