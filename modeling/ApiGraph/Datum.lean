import ApiGraph.Calendar
import ApiGraph.Json.Shown
import ApiGraph.Number.Integer

/-! What a file holds once it is read: JSON values, and what other notations have beyond them —
days and moments, bytes, sets, and mappings whose keys are no strings. A place where a value
would contain itself holds a cycle. -/

namespace ApiGraph

/-- A value that was read from a file. -/
inductive Datum where
  | null
  | bool (b : Bool)
  | int (n : Int)
  | float (x : Double)
  | text (s : String)
  | date (d : Date)
  | moment (m : Moment)
  | bytes (bs : List UInt8)
  | list (items : List Datum)
  | map (entries : List (Datum × Datum))
  | set (items : List Datum)
  /-- An item of a list of pairs. -/
  | pair (first second : Datum)
  /-- A list or a mapping inside itself. -/
  | cycle (isList : Bool)

namespace Datum

/-- A number that can stand beside integers and doubles. -/
inductive Quantity where
  | ratio (num : Int) (den : Nat)
  | infinite (negative : Bool)
  | nan

/-- The number that a value is as a key: truth values are zero and one. -/
def quantity? : Datum → Option Quantity
  | .bool b => some (.ratio (if b then 1 else 0) 1)
  | .int n => some (.ratio n 1)
  | .float (.infinite a) => some (.infinite a)
  | .float .nan => some .nan
  | .float x => x.toFraction?.map fun p => .ratio p.1 p.2
  | _ => none

/-- Whether two numbers are equal. -/
def Quantity.same : Quantity → Quantity → Bool
  | .ratio a m, .ratio b n => a * n == b * m
  | .infinite a, .infinite b => a == b
  | .nan, .nan => true
  | _, _ => false

/-- Whether two keys are the same; numbers are if they are equal. -/
def sameKey (a b : Datum) : Bool :=
  match a.quantity?, b.quantity? with
  | some x, some y => x.same y
  | none, none =>
    match a, b with
    | .null, .null => true
    | .text s, .text t => s == t
    | .date d, .date e => d == e
    | .moment m, .moment n => m.same n
    | .bytes x, .bytes y => x == y
    | _, _ => false
  | _, _ => false

/-- Whether a value can be a key. -/
def isKey : Datum → Bool
  | .list _ | .map _ | .set _ | .pair .. | .cycle _ => false
  | _ => true

/-- The value under a key of a mapping. -/
def get? (v : Datum) (key : String) : Option Datum :=
  match v with
  | .map entries => (entries.find? fun p => (Datum.text key).sameKey p.1).map Prod.snd
  | _ => none

/-- The value under a key of a mapping, null when there is none. -/
def get (v : Datum) (key : String) : Datum := (v.get? key).getD .null

/-- The value itself, or nothing when it is null. -/
def nonNull : Datum → Option Datum
  | .null => none
  | v => some v

/-- Whether the value is a text. -/
def isText : Datum → Bool
  | .text _ => true
  | _ => false

/-- Whether the value is no number although it is a double. -/
def isNan : Datum → Bool
  | .float .nan => true
  | _ => false

/-- Whether the value is a mapping. -/
def isMap : Datum → Bool
  | .map _ => true
  | _ => false

mutual

/-- A JSON value as it is. -/
def ofJson : Json → Datum
  | .null => .null
  | .bool b => .bool b
  | .int n => .int n
  | .float x => .float x
  | .str s => .text s
  | .arr items => .list (ofItems items)
  | .obj entries => .map (ofEntries entries)

/-- The same for each item. -/
def ofItems : List Json → List Datum
  | [] => []
  | v :: rest => ofJson v :: ofItems rest

/-- The same for each value. -/
def ofEntries : List (String × Json) → List (Datum × Datum)
  | [] => []
  | (k, v) :: rest => (.text k, ofJson v) :: ofEntries rest

end

/-- The word for the type of a value. -/
def typeName : Datum → String
  | .null => "NoneType"
  | .bool _ => "bool"
  | .int _ => "int"
  | .float _ => "float"
  | .text _ => "str"
  | .date _ => "date"
  | .moment _ => "datetime"
  | .bytes _ => "bytes"
  | .list _ => "list"
  | .map _ => "dict"
  | .set _ => "set"
  | .pair .. => "tuple"
  | .cycle isList => if isList then "list" else "dict"

/-- A zone inside a message. -/
def nestedZone (offset : Int) : String :=
  if offset = 0 then "datetime.timezone.utc"
  else
    let days := offset.fdiv 1440
    let seconds := offset.fmod 1440 * 60
    let day := if days = 0 then "" else s!"days={days}, "
    s!"datetime.timezone(datetime.timedelta({day}seconds={seconds}))"

/-- A moment inside a message. -/
def nestedMoment (m : Moment) : String :=
  let seconds :=
    if m.micro ≠ 0 then s!", {m.second}, {m.micro}"
    else if m.second ≠ 0 then s!", {m.second}"
    else ""
  let zone := (m.offset.map fun o => s!", tzinfo={nestedZone o}").getD ""
  let d := m.date
  s!"datetime.datetime({d.year}, {d.month}, {d.day}, {m.hour}, {m.minute}{seconds}{zone})"

mutual

/-- A value inside a message, strings quoted. -/
def nested : Datum → List Char
  | .null => "None".toList
  | .bool b => (if b then "True" else "False").toList
  | .int n => Json.intText n
  | .float x => Json.shownFloat x
  | .text s => Json.shownKey s
  | .date d => s!"datetime.date({d.year}, {d.month}, {d.day})".toList
  | .moment m => (nestedMoment m).toList
  | .bytes bs => 'b' :: Text.quotedBytes bs
  | .list items => '[' :: Text.join [',', ' '] (nestedItems items) ++ [']']
  | .map entries => '\x7b' :: Text.join [',', ' '] (nestedEntries entries) ++ ['\x7d']
  | .set [] => "set()".toList
  | .set (v :: rest) =>
    '\x7b' :: Text.join [',', ' '] (nested v :: nestedItems rest) ++ ['\x7d']
  | .pair a b => '(' :: nested a ++ ',' :: ' ' :: nested b ++ [')']
  | .cycle isList => (if isList then "[...]" else "\x7b...\x7d").toList

/-- Each item inside a message. -/
def nestedItems : List Datum → List (List Char)
  | [] => []
  | v :: rest => nested v :: nestedItems rest

/-- Each entry inside a message. -/
def nestedEntries : List (Datum × Datum) → List (List Char)
  | [] => []
  | (k, v) :: rest => (nested k ++ ':' :: ' ' :: nested v) :: nestedEntries rest

end

/-- Whether an integer has too many digits to be written. -/
def isHuge (n : Int) : Bool := Nat.pow 10 Integer.maxDigits ≤ n.natAbs

mutual

/-- Whether a value has an integer in it with too many digits to be written. -/
def hasHuge : Datum → Bool
  | .int n => isHuge n
  | .list items | .set items => haveHuge items
  | .map entries => entriesHaveHuge entries
  | .pair a b => hasHuge a || hasHuge b
  | _ => false

/-- The same for any of some items. -/
def haveHuge : List Datum → Bool
  | [] => false
  | v :: rest => hasHuge v || haveHuge rest

/-- The same for any of some keys and values. -/
def entriesHaveHuge : List (Datum × Datum) → Bool
  | [] => false
  | (k, v) :: rest => hasHuge k || hasHuge v || entriesHaveHuge rest

end

/-- A value as a message shows it, if it can be written. -/
def shown? (v : Datum) : Option String :=
  match v with
  | .text s => some s
  | .date d => some d.text
  | .moment m => some m.text
  | v => if v.hasHuge then none else some (String.ofList v.nested)

/-- Why a value has no JSON form. -/
inductive CopyFlaw where
  /-- It contains itself. -/
  | cyclic
  /-- An integer in it has too many digits. -/
  | huge
  /-- One of its keys has no text. -/
  | badKey
  /-- Its keys have no common order. -/
  | unordered
deriving DecidableEq

/-- The text of a key. -/
def keyText : Datum → Except CopyFlaw String
  | .text s => .ok s
  | .null => .ok "null"
  | .bool b => .ok (if b then "true" else "false")
  | .int n => if isHuge n then .error .huge else .ok (String.ofList (Json.intText n))
  | .float x => .ok (String.ofList (Json.floatText x))
  | _ => .error .badKey

mutual

/-- The JSON form of a value: keys become texts, and what JSON has no word for is shown. -/
def toJson : Datum → Except CopyFlaw Json
  | .null => .ok .null
  | .bool b => .ok (.bool b)
  | .int n => if isHuge n then .error .huge else .ok (.int n)
  | .float x => .ok (.float x)
  | .text s => .ok (.str s)
  | .date d => .ok (.str d.text)
  | .moment m => .ok (.str m.text)
  | .bytes bs => .ok (.str (String.ofList ('b' :: Text.quotedBytes bs)))
  | .list items => do return .arr (← itemsToJson items)
  | .map entries => do return .ofEntries (← entriesToJson entries)
  | .set items =>
    if haveHuge items then .error .huge else .ok (.str (String.ofList (nested (.set items))))
  | .pair a b => do
    let a ← toJson a
    return .arr [a, ← toJson b]
  | .cycle _ => .error .cyclic

/-- The JSON form of each item. -/
def itemsToJson : List Datum → Except CopyFlaw (List Json)
  | [] => .ok []
  | v :: rest => do
    let v ← toJson v
    return v :: (← itemsToJson rest)

/-- The JSON form of each entry. -/
def entriesToJson : List (Datum × Datum) → Except CopyFlaw (List (String × Json))
  | [] => .ok []
  | (k, v) :: rest => do
    let k ← keyText k
    let v ← toJson v
    return (k, v) :: (← entriesToJson rest)

end

/-! The ordered form of a value is its JSON form with the keys of each mapping in their natural
order, for which they have to be of one sort. -/

/-- The sorts of keys. Keys of two sorts have no order. -/
inductive KeySort where
  | null
  | number
  | text
  | other
deriving DecidableEq

/-- The sort of a key. -/
def keySort : Datum → KeySort
  | .null => .null
  | .bool _ | .int _ | .float _ => .number
  | .text _ => .text
  | _ => .other

/-- Whether one key comes before another one or is the same, for keys of one sort. -/
def keyLe (a b : Datum) : Bool :=
  match a, b with
  | .text s, .text t => decide (s ≤ t)
  | _, _ =>
    match a.quantity?, b.quantity? with
    | some (.ratio m p), some (.ratio n q) => m * q ≤ n * p
    | some (.infinite negative), some _ => negative
    | some _, some (.infinite negative) => !negative
    | _, _ => true

/-- Whether all keys are of one sort. -/
def haveOrder : List Datum → Bool
  | [] => true
  | k :: rest => rest.all fun j => j.keySort == k.keySort

mutual

/-- The ordered form of a value. -/
def ordered : Datum → Except CopyFlaw Json
  | .list items => do return .arr (← orderedItems items)
  | .pair a b => do
    let a ← ordered a
    return .arr [a, ← ordered b]
  | .map entries => do
    if !haveOrder (entries.map Prod.fst) then throw .unordered
    let made ← orderedEntries entries
    return .obj ((made.mergeSort fun p q => p.1.keyLe q.1).map Prod.snd)
  | v => v.toJson

/-- The ordered form of each item. -/
def orderedItems : List Datum → Except CopyFlaw (List Json)
  | [] => .ok []
  | v :: rest => do
    let v ← ordered v
    return v :: (← orderedItems rest)

/-- The ordered form of each value, with the text of its key and the key itself. -/
def orderedEntries : List (Datum × Datum) → Except CopyFlaw (List (Datum × String × Json))
  | [] => .ok []
  | (k, v) :: rest => do
    let text ← keyText k
    let v ← ordered v
    return (k, text, v) :: (← orderedEntries rest)

end

end Datum

end ApiGraph
