import ApiGraph.Files.Text
import ApiGraph.Snapshot
import ApiGraph.Source.Answer
import ApiGraph.Yaml.Document

/-! Where documents come from: the standard input, an address, or a file. JSON is tried first and
YAML after it, unless the source tells which of the two it is. -/

namespace ApiGraph

/-- The notation of a text. -/
inductive Notation where
  | json
  | yaml
  | either
deriving DecidableEq

/-- The notation with a word; any other word leaves it open. -/
def Notation.ofWord (w : String) : Notation :=
  match w with
  | "json" => .json
  | "yaml" => .yaml
  | _ => .either

namespace Document

/-- A document is a mapping. -/
def requireMap (v : Datum) : Except Failure Datum :=
  match v with
  | .map entries => .ok (.map entries)
  | .null => .error (.load (.notMapping "empty document"))
  | v => .error (.load (.notMapping v.typeName))

/-- The document that a YAML text writes, after JSON was tried or not. -/
def ofYaml (text : String) (fault : Option Json.Fault) : Except Failure Datum :=
  match Yaml.read text with
  | .ok v => requireMap v
  | .error .malformed => .error (.load (.neither fault))
  | .error (.value kind) => .error (.misuse kind)

/-- The document that a text writes. -/
def ofText (text : String) (n : Notation) : Except Failure Datum :=
  if n = .yaml then ofYaml text none
  else
    match Json.parse text with
    | .ok v => requireMap (.ofJson v)
    | .error fault =>
      if fault.flaw = .hugeInteger then .error (.misuse .badValue)
      else if n = .json then .error (.load (.json fault))
      else ofYaml text (some fault)

/-- Whether a text holds nothing but white space. -/
def isBlankText (text : String) : Bool := text.toList.all Text.isBlank

end Document

/-- What a run can read from. -/
structure Surroundings where
  files : Files.Tree
  input : String
  answer : String → Answer

/-- Where a document comes from. -/
inductive Source where
  | input
  | address (url : String)
  | file (path : String)

namespace Source

/-- The source that a text names. -/
def ofText (text : String) : Source :=
  if text = "-" then .input
  else if "http://".toList.isPrefixOf text.toList || "https://".toList.isPrefixOf text.toList then
    .address text
  else .file text

/-- Whether a text occurs in another one. -/
def occursIn (part : List Char) : List Char → Bool
  | [] => part.isEmpty
  | c :: rest => part.isPrefixOf (c :: rest) || occursIn part rest

/-- The notation that a type of content names. -/
def contentNotation (type : String) : Notation :=
  if occursIn "json".toList type.toList then .json
  else if occursIn "yaml".toList type.toList || occursIn "yml".toList type.toList then .yaml
  else .either

/-- The notation that the ending of a file name names. -/
def fileNotation (p : Files.Place) : Notation :=
  match p.suffix with
  | ".json" => .json
  | ".yaml" | ".yml" => .yaml
  | _ => .either

/-- What is said of a content that cannot be unpacked. -/
def unpackFlaw (flaw : Deflate.Flaw) : String :=
  s!"Error -3 while decompressing data: {flaw.message}"

/-- The document that an address answers with. -/
def loadAnswer (url : String) : Answer → Except Failure Datum
  | .refused reason => .error (.load (.unreachable url reason))
  | .reply r => do
    if !r.hasPlainHeaders then throw (.misuse .unencodable)
    match r.content with
    | .error flaw => throw (.load (.unreachable url (unpackFlaw flaw)))
    | .ok bytes =>
      if !r.isSuccess then throw (.load (.status r.status url))
      match r.textOf bytes with
      | .error kind => throw (.misuse kind)
      | .ok text => Document.ofText text (contentNotation (r.header "content-type"))

/-- The document in a file. -/
def loadFile (files : Files.Tree) (path : String) : Except Failure Datum :=
  let place := Files.Place.ofText path
  match files.read place with
  | .error .tooLong => .error (.misuse .tooLong)
  | .error _ => .error (.load (.notFound path))
  | .ok bytes => do
    let text ← Files.textOf bytes
    if Document.isBlankText text then throw (.load (.emptyFile path))
    Document.ofText text (fileNotation place)

/-- The document at a source. -/
def load (around : Surroundings) : Source → Except Failure Datum
  | .input =>
    if Document.isBlankText around.input then .error (.load .emptyInput)
    else Document.ofText around.input .either
  | .address url => loadAnswer url (around.answer url)
  | .file path => loadFile around.files path

end Source

/-- The snapshot in a file. -/
def Snapshot.ofFile (files : Files.Tree) (path : String) : Except Failure Snapshot :=
  let place := Files.Place.ofText path
  match files.read place with
  | .error .unnameable => .error (.misuse .badValue)
  | .error o =>
    let name := String.ofList (Text.quoted place.text.toList)
    .error (.load (.snapshotFile path s!"{o.message}: {name}"))
  | .ok bytes => do
    let text ← Files.textOf bytes
    match Json.parse text with
    | .error fault =>
      if fault.flaw = .hugeInteger then throw (.misuse .badValue)
      else throw (.load (.snapshotJson path fault))
    | .ok v =>
      match Snapshot.ofJson v with
      | .ok s => return s
      | .error flaw => throw (.load flaw)

end ApiGraph
