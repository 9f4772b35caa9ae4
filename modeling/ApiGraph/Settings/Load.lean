import ApiGraph.Files.Text
import ApiGraph.Settings.Basic

/-! Where settings come from: the arguments of a run come before the environment, the environment
before the settings file. The places of that file, of stored snapshots and of other data follow
the convention of the operating system. -/

namespace ApiGraph

/-- The variables of the environment. -/
abbrev Environment := Dict String String

namespace Environment

/-- The place of the home of the user; an empty text is the root. Nobody knows a home whose text
begins with a tilde. -/
def home (env : Environment) : Except Failure Files.Place :=
  let text := (env.lookup "HOME").getD ""
  if text.toList.head? = some '~' then .error (.misuse .homeless)
  else if text.toList.all (· == '/') then .ok ⟨.root, []⟩
  else .ok (.ofText text)

/-- The words that switch something off. -/
def falseWords : List String := ["0", "false", "no", "off"]

/-- Whether a variable is set to a word that switches something off. -/
def isOff (env : Environment) (name : String) : Bool :=
  (env.lookup name).any fun v =>
    falseWords.contains (String.ofList ((Text.trim v.toList).map Char.toLower))

end Environment

/-- What an operating system holds to when it comes to places. -/
inductive Convention where
  /-- A base for each purpose, which variables of the environment can move. -/
  | bases
  /-- One directory in the home. -/
  | home
deriving DecidableEq

namespace Convention

/-- The convention of an operating system. -/
def ofSystem (name : String) : Convention :=
  if name = "Linux" || "BSD".toList.isSuffixOf name.toList then .bases else .home

/-- The directory inside the base that a variable of the environment names, or inside some names in
the home. -/
def based (env : Environment) (key : String) (names : List String) :
    Except Failure Files.Place := do
  let text := (env.lookup key).getD ""
  let base ← if text.isEmpty then names.foldl Files.Place.child <$> env.home
    else pure (.ofText text)
  return base.child "specgraph"

/-- The one directory in the home. -/
def own (env : Environment) : Except Failure Files.Place := do
  return (← env.home).child ".specgraph"

/-- The directory of the settings file. -/
def settings (c : Convention) (env : Environment) : Except Failure Files.Place :=
  match c with
  | .bases => based env "XDG_CONFIG_HOME" [".config"]
  | .home => own env

/-- The directory of the stored snapshots. -/
def store (c : Convention) (env : Environment) : Except Failure Files.Place :=
  match c with
  | .bases => based env "XDG_CACHE_HOME" [".cache"]
  | .home => return (← own env).child "cache"

/-- The directory of other data. -/
def data (c : Convention) (env : Environment) : Except Failure Files.Place :=
  match c with
  | .bases => based env "XDG_DATA_HOME" [".local", "share"]
  | .home => return (← own env).child "logs"

end Convention

/-- A directory that is there after it was made together with those around it. -/
def Files.Tree.provide (files : Files.Tree) (place : Except Failure Files.Place) :
    Except Failure (Files.Place × Files.Tree) := do
  let p ← place
  match files.ensureDirectories p with
  | .ok files => return (p, files)
  | .error o => throw (.misuse o.misuse)

namespace Settings

/-- The settings in the bytes of a file. -/
def ofBytes (bytes : List UInt8) : Except SettingsFlaw Settings :=
  match Files.textOf bytes with
  | .error _ => .error .unreadable
  | .ok text =>
    match Json.parse text with
    | .error fault => .error (if fault.flaw = .hugeInteger then .unreadable else .json fault)
    | .ok v =>
      match Settings.ofJson v with
      | .fits s => .ok s
      | .fails ms => .error (.mismatch ms)

/-- The settings in the settings file, if there is one. -/
def ofFile (files : Files.Tree) (place : Files.Place) : Except Failure Settings :=
  match files.read place with
  | .error _ => .ok .default
  | .ok bytes =>
    match ofBytes bytes with
    | .ok s => .ok s
    | .error flaw => .error (.settings place.text flaw)

/-- What a run asks for in its arguments. -/
structure Wishes where
  format : Option String
  withoutStore : Bool

/-- The place of the settings file in its directory. -/
def fileIn (directory : Files.Place) : Files.Place := directory.child "config.json"

/-- The settings of a run, by the settings file in a directory. -/
def load (files : Files.Tree) (directory : Files.Place) (env : Environment) (wishes : Wishes) :
    Except Failure Settings := do
  let s ← ofFile files (fileIn directory)
  let s := if env.isOff "SPECGRAPH_CACHE" || wishes.withoutStore then s.withoutStore else s
  return { s with format := wishes.format.getD s.format }

end Settings

end ApiGraph
