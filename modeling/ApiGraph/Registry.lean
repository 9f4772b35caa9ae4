import ApiGraph.Entity.Basic
import ApiGraph.Failure
import ApiGraph.Json.Writer
import ApiGraph.Pointer
import ApiGraph.Schema.Keyword

/-! The registry of names. It knows which name stands for a declared key, which name stands for
the content of a node without a name, and which model a name stands for. Declared keys and
contents are kept apart, so that a declared model is never merged with an equal one without a
name. A name that was ever given away is taken and is not given away again. -/

namespace ApiGraph

/-- The two ways in which a model is found again: by its declared key or by its content. -/
inductive KeySpace where
  | named
  | structural
deriving DecidableEq

/-- The word for a key space. -/
def KeySpace.word : KeySpace → String
  | .named => "named"
  | .structural => "structural"

/-- The key space that a word names. -/
def KeySpace.ofWord? (w : String) : Option KeySpace := [.named, .structural].find? (·.word == w)

/-- The names of one run. -/
structure Registry where
  /-- Declared keys and the names that stand for them. -/
  named : Dict String String
  /-- The canonical texts of nodes and the names that stand for them. -/
  structural : Dict String String
  /-- Names and their models, in the order of registration. -/
  models : Dict String Model
  /-- The names that were given away. -/
  taken : List String

/-- A handle with the model it leads to; a handle that leads out of the document has none. -/
structure Resolved where
  ref : Ref
  model : Option Model

namespace Registry

/-- The registry without names. -/
def empty : Registry := ⟨[], [], [], []⟩

/-- The registry of models that are known from elsewhere. -/
def restore (models : Dict String Model) : Registry :=
  ⟨[], [], Dict.ofEntries models, Dict.keys models⟩

/-- Whether a name was given away. -/
def isTaken (r : Registry) (name : String) : Bool := r.taken.contains name

/-- Whether a name has a model. -/
def contains (r : Registry) (name : String) : Bool := Dict.has r.models name

/-- The variant of a name with a number. -/
def numbered (name : String) (k : Nat) : String := name ++ String.ofList (Nat.toDigits 10 k)

/-- The first variant from a number on that is not taken; the fuel is enough when it exceeds the
number of taken names. -/
def seek (taken : List String) (name : String) : Nat → Nat → String
  | 0, k => numbered name k
  | fuel + 1, k =>
    if taken.contains (numbered name k) then seek taken name fuel (k + 1) else numbered name k

/-- A name if it is not among the taken ones, else its first variant from two on that is not. -/
def freeVariant (taken : List String) (name : String) : String :=
  if taken.contains name then seek taken name taken.length 2 else name

/-- The first variant of a name that is not taken. -/
def freeName (r : Registry) (name : String) : String := freeVariant r.taken name

/-- Gives away the first free variant of a name. -/
def claim (r : Registry) (name : String) : String × Registry :=
  let free := r.freeName name
  (free, { r with taken := free :: r.taken })

/-- The name for a declared key, given away now if there is none yet. -/
def reserve (r : Registry) (key name : String) : Ref × Registry :=
  match r.named.lookup key with
  | some known => (.named known, r)
  | none =>
    let (free, r) := r.claim name
    (.named free, { r with named := Dict.put r.named key free })

/-- Lets a name stand for a declared key. -/
def redirect (r : Registry) (key name : String) : Registry :=
  { r with named := Dict.put r.named key name }

/-- The handle for a declared key or a name, also before its model is registered. -/
def lookupRef (r : Registry) (key : String) : Option Ref :=
  match r.named.lookup key with
  | some name => some (.named name)
  | none => if r.contains key then some (.named key) else none

/-- The handle to a registered model that was resolved from an equal node. -/
def findStructural (r : Registry) (node : Json) : Option Ref :=
  match r.structural.lookup node.canonical with
  | some name => if r.contains name then some (.named name) else none
  | none => none

/-- The model for a name or a declared key. -/
def resolve (r : Registry) (key : String) : Option Resolved :=
  let name := if r.contains key then key else (r.named.lookup key).getD key
  (r.models.lookup name).map fun m => ⟨.named name, some m⟩

/-- The model that a handle leads to. -/
def resolveRef (r : Registry) (ref : Ref) : Option Resolved :=
  if ref.isRemote then some ⟨ref, none⟩ else r.resolve ref.name

/-- The model for a name or a declared key, which has to be there. -/
def require (r : Registry) (key location : String) : Except Failure Resolved :=
  match r.resolve key with
  | some resolved => .ok resolved
  | none => .error (.missingReference key location)

/-- The model that a handle leads to, which has to be there. -/
def requireRef (r : Registry) (ref : Ref) (location : String) : Except Failure Resolved :=
  match r.resolveRef ref with
  | some resolved => .ok resolved
  | none => .error (.missingReference ref.name location)

/-- The name for a key of a key space. -/
def indexed (r : Registry) (space : KeySpace) (key : String) : Option String :=
  match space with
  | .named => r.named.lookup key
  | .structural => r.structural.lookup key

/-- Lets a name stand for a key of a key space. -/
def index (r : Registry) (space : KeySpace) (key name : String) : Registry :=
  match space with
  | .named => { r with named := Dict.put r.named key name }
  | .structural => { r with structural := Dict.put r.structural key name }

/-- The key under which a model is found again. -/
def keyFor (space : KeySpace) (raw : Json) (m : Model) (hint : Option String) : String :=
  match space with
  | .named =>
    match hint with
    | some key => if key.isEmpty then m.name else key
    | none => m.name
  | .structural => raw.canonical

/-- A model under a name, with all keywords of the node it was resolved from. -/
def entitled (m : Model) (name : String) : Model :=
  let k := Schema.keywords m.source
  { m with
    name := name
    validations := Dict.merge m.validations k.validations
    extras := Dict.merge m.extras k.extras }

/-- Registers a model under a name. -/
def enrol (r : Registry) (name : String) (m : Model) : Resolved × Registry :=
  let m := entitled m name
  (⟨.named name, some m⟩, { r with models := Dict.put r.models name m })

/-- Registers a model, or finds the one that is registered for its key. -/
def register (r : Registry) (space : KeySpace) (key : String) (m : Model) :
    Resolved × Registry :=
  match r.indexed space key with
  | some name =>
    match r.models.lookup name with
    | some known => (⟨.named name, some known⟩, r)
    | none => r.enrol name m
  | none =>
    let (name, r) := r.claim m.name
    (r.index space key name).enrol name m

/-- Registers what a node was resolved into. A handle is followed, and so is a node that is
itself a reference. -/
def assert (r : Registry) (raw : Json) (parsed : Link Model) (hint : Option String)
    (space : KeySpace) (location : String) : Except Failure (Resolved × Registry) :=
  match parsed with
  | .ref ref => (r.requireRef ref location).map (·, r)
  | .model m =>
    match raw.get? "$ref" with
    | some (.str ref) =>
      if Pointer.isLocal ref then (r.require ref location).map (·, r)
      else .ok (⟨.remote ref, none⟩, r)
    | _ => .ok (r.register space (keyFor space raw m hint) m)

end Registry

end ApiGraph
