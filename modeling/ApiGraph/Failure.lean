import ApiGraph.Json.Reader
import ApiGraph.Json.Shape
import ApiGraph.Schema.Flaw

/-! Everything that can end a run, as causes. Each cause has one wording and one exit code; a
cause that comes from the structure of a description also tells where it stands. -/

namespace ApiGraph

/-- Why a document or a snapshot cannot be read. -/
inductive LoadFlaw where
  | notFound (path : String)
  | emptyFile (path : String)
  | emptyInput
  | status (code : Int) (url : String)
  | unreachable (url reason : String)
  | json (fault : Json.Fault)
  | neither (json : Option Json.Fault)
  | notMapping (type : String)
  | notSnapshot
  | unknownCategory (name : String)
  | snapshotMismatch (mismatches : Option (List Shape.Mismatch))
  | snapshotFile (path reason : String)
  | snapshotJson (path : String) (fault : Json.Fault)

/-- The flaw in words. -/
def LoadFlaw.message : LoadFlaw → String
  | .notFound path => s!"Document not found: {path}"
  | .emptyFile path => s!"Document is empty: {path}"
  | .emptyInput => "No input received from stdin"
  | .status code url => s!"HTTP {code} fetching document from {url}"
  | .unreachable url reason => s!"Failed to fetch document from {url}: {reason}"
  | .json fault => s!"Invalid JSON: {fault.message}"
  | .neither fault? =>
    let first :=
      match fault? with
      | some fault => s!"\n  JSON error: {fault.message}"
      | none => ""
    s!"Failed to parse document as JSON or YAML{first}\n  YAML error: ..."
  | .notMapping type => s!"Document must be a JSON/YAML object (got {type})"
  | .notSnapshot => "Snapshot must be a JSON object"
  | .unknownCategory name => s!"Unknown snapshot category '{name}'"
  | .snapshotMismatch _ => "Invalid snapshot: ..."
  | .snapshotFile path reason => s!"Failed to read snapshot {path}: {reason}"
  | .snapshotJson path fault => s!"Invalid snapshot JSON in {path}: {fault.message}"

/-- Why the settings file cannot be used. -/
inductive SettingsFlaw where
  | json (fault : Json.Fault)
  /-- Its bytes are no text, or a number in it has too many digits. -/
  | unreadable
  | mismatch (mismatches : List Shape.Mismatch)

/-- A value used as something that it is not. -/
inductive Misuse where
  /-- A value of the wrong type for an operation. -/
  | wrongType
  /-- A value without the member that is asked of it. -/
  | noMember
  /-- A mapping without the key that is asked of it. -/
  | missingKey
  /-- A list without the index that is asked of it. -/
  | outOfRange
  /-- A word that is none of a vocabulary, or a date that is none. -/
  | badValue
  /-- A number beyond the range of an operation. -/
  | overflow
  /-- Bytes that are no UTF-8 text. -/
  | undecodable
  /-- A directory to make where a file stands. -/
  | fileExists
  /-- A file to write where a directory stands. -/
  | isDirectory
  /-- A file on the way to another file. -/
  | notDirectory
  /-- A file to write where a directory is in use. -/
  | busy
  /-- A file that is not there. -/
  | noSuchFile
  /-- A file whose name has too many characters. -/
  | tooLong
  /-- A home that nobody knows. -/
  | homeless
  /-- Bytes read as a text of units without a mark for the order of their bytes, or by what is no
  encoding of text. -/
  | notText
  /-- Bytes read as a text by what puts up with no flaw in them. -/
  | unforgiving
  /-- A text with characters that its place does not allow. -/
  | unencodable
  /-- A chain of references without an end. -/
  | endless
deriving DecidableEq

/-- Why a run ended. -/
inductive Failure where
  | load (flaw : LoadFlaw)
  | version (version source : Option String)
  | legacy (version : String) (source : Option String)
  | missingReference (ref location : String)
  | malformed (flaw : Schema.Flaw) (location : String)
  | alreadyLoaded (generator : String)
  | settings (path : String) (flaw : SettingsFlaw)
  | mismatch (mismatches : List Shape.Mismatch)
  | planned (message : String)
  | misuse (kind : Misuse)

namespace Failure

/-- A message with the place it is about. -/
def located (message location : String) : String :=
  if location.isEmpty then message else s!"{message} (at {location})"

/-- A version in a message. -/
def shownVersion (version : Option String) : String := version.getD "None"

/-- The failure in words. -/
def message : Failure → String
  | .load flaw => flaw.message
  | .version v source =>
    let origin :=
      match source with
      | some s => if s.isEmpty then "" else s!", {s}"
      | none => ""
    s!"Invalid schema - only 3.x is supported: '{shownVersion v}'{origin}"
  | .legacy v _ =>
    s!"Swagger {v} is not supported. Only OpenAPI 3.x documents can be parsed. " ++
      "Consider converting with https://converter.swagger.io"
  | .missingReference ref location => located s!"Cannot resolve reference '{ref}'" location
  | .malformed flaw location => located flaw.message location
  | .alreadyLoaded generator => s!"Generator '{generator}' is already loaded"
  | .settings path (.json fault) => s!"Invalid global config at {path}: {fault.message}"
  | .settings path _ => s!"Invalid global config at {path}: ..."
  | .mismatch _ => "Data does not have the expected shape"
  | .planned text => text
  | .misuse _ => "Value used as something that it is not"

/-- The failure as a terminal shows it: what is wrong inside the settings file is not repeated. -/
def report : Failure → String
  | .settings path _ => s!"Invalid global config at {path}: ..."
  | f => f.message

/-- The exit code for a failure that is reported by its message; a failure without one is an
accident of the program's input that no report foresees. -/
def exitCode? : Failure → Option Nat
  | .load _ => some 3
  | .version .. => some 4
  | .legacy .. => some 4
  | .missingReference .. => some 5
  | .malformed .. => some 6
  | .alreadyLoaded _ => some 10
  | .settings .. => some 1
  | .mismatch _ | .planned _ | .misuse _ => none

end Failure

end ApiGraph
