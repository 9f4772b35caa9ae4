import ApiGraph.Digest.Sha256
import ApiGraph.Settings.Basic
import ApiGraph.Version

/-! Stored snapshots. A snapshot is found again under every document of the same content, in
whatever order its keys are written, by the same release. Time does not pass here: a snapshot that
is stored for a while is found ever after, one that is stored for no time is not found at all. -/

namespace ApiGraph

/-- The snapshots that are stored, by the digests of their documents. -/
structure Store where
  /-- Whether the directory of the snapshots was made. -/
  isMade : Bool
  entries : Dict String Json

namespace Store

/-- A store that nobody has opened. -/
def new : Store := ⟨false, []⟩

/-- The digests under which there are snapshots. -/
def keys (s : Store) : List String := Dict.keys s.entries

/-- The stored snapshots as JSON. -/
def toJson (s : Store) : Json := .obj s.entries

/-- The stored snapshots that a JSON value writes. -/
def ofJson : Json → Store
  | .obj entries => ⟨true, entries⟩
  | _ => new

/-- The misuse that a document without a text for its content is. -/
def misuse : Datum.CopyFlaw → Misuse
  | .cyclic | .huge => .badValue
  | .badKey | .unordered => .wrongType

/-- The text that stands for the content of a document. -/
def keyText (document : Datum) : Except Datum.CopyFlaw String := do
  return release ++ "|" ++ (← document.ordered).render .line

/-- The digest of a document. -/
def key (document : Datum) : Except Failure String :=
  match keyText document with
  | .ok text => .ok (Sha256.ofText text)
  | .error flaw => .error (.misuse (misuse flaw))

/-- The store after it was opened; one that is switched off stays as it is. -/
def opened (s : Store) (rules : StoreSettings) : Store :=
  { s with isMade := s.isMade || rules.enabled }

/-- The snapshot for a document. -/
def find? (s : Store) (rules : StoreSettings) (document : Datum) :
    Except Failure (Option Json) :=
  if rules.enabled then do return s.entries.lookup (← key document) else return none

/-- The store with a snapshot for a document. Seconds that no double can count are refused. -/
def keep (s : Store) (rules : StoreSettings) (document : Datum) (snapshot : Json) :
    Except Failure Store := do
  if !rules.enabled then return s
  let k ← key document
  if !(Double.ofInt rules.seconds).isFinite then throw (.misuse .overflow)
  if 0 < rules.seconds then return { s with entries := Dict.put s.entries k snapshot }
  else return { s with entries := s.entries.filter fun p => p.1 != k }

end Store

end ApiGraph
