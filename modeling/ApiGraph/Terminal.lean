import ApiGraph.Dict
import ApiGraph.Failure
import ApiGraph.Json.Shown
import ApiGraph.Json.Writer
import ApiGraph.Settings.Load

/-! What a run shows. Results go to the output, everything that is said about them goes to the
diagnostics, so that the output can be read by a program. -/

namespace ApiGraph

/-- The formats of results. -/
inductive Format where
  /-- Decided by what the output is. -/
  | auto
  | json
  | plain
  | rich
deriving DecidableEq

namespace Format

/-- The word for a format. -/
def word : Format → String
  | .auto => "auto"
  | .json => "json"
  | .plain => "plain"
  | .rich => "rich"

/-- The format with a word. -/
def ofWord? (w : String) : Option Format :=
  [auto, json, plain, rich].find? fun f => f.word == w

end Format

/-- How a run shows things. -/
structure Terminal where
  format : Format
  plainColor : Bool
  quiet : Bool
  verbose : Bool

namespace Terminal

/-- Whether the environment forbids colours. -/
def forbidsColor (env : Environment) : Bool :=
  (env.lookup "NO_COLOR").isSome || env.lookup "TERM" == some "dumb"

/-- The terminal for some wishes. A person at a screen that may show colours gets the rich
format unless another one is asked for. -/
def make (format : Format) (plainColor quiet verbose : Bool) (env : Environment)
    (isScreen : Bool) : Terminal :=
  let plainColor := plainColor || forbidsColor env
  let format :=
    if format = .auto then if isScreen && !plainColor then .rich else .plain else format
  ⟨format, plainColor, quiet, verbose⟩

/-- A line of the output. -/
def line (text : String) : String := text ++ "\n"

/-- The cells of a row with tabs between them; every cell has to be a text. -/
def tabbed (row : Json) : Option String := do
  let texts ← (← row.parts?).mapM Json.text?
  return line (String.intercalate "\t" texts)

/-- The rows as lines, up to the first one with a cell that is no text. -/
def tabbedRows : List Json → Except Failure Unit × String
  | [] => (.ok (), "")
  | row :: rest =>
    match tabbed row with
    | none => (.error (.misuse .wrongType), "")
    | some first =>
      let (outcome, more) := tabbedRows rest
      (outcome, first ++ more)

/-- The key that a header makes: a header with parts makes none. -/
def recordKey? : Json → Option String
  | .str s => some s
  | .arr _ | .obj _ => none
  | v => some (v.render .line)

/-- A row as an object with the headers as keys. -/
def record? (headers row : Json) : Option Json := do
  let cells := (← headers.parts?).zip (← row.parts?)
  return .ofEntries (← cells.mapM fun p => (recordKey? p.1).map (·, p.2))

/-- The output for a table, and whether all of it could be shown. Lines are shown one by one,
objects only all together. -/
def table (t : Terminal) (headers rows : Json) : Except Failure Unit × String :=
  let refused : Except Failure Unit := .error (.misuse .wrongType)
  match t.format with
  | .json =>
    match rows.parts?.bind fun parts => parts.mapM (record? headers) with
    | some records => (.ok (), line ((Json.arr records).render .readable))
    | none => (refused, "")
  | _ =>
    match tabbed headers, rows.parts? with
    | none, _ => (refused, "")
    | some head, none => (refused, head)
    | some head, some parts =>
      let (outcome, body) := tabbedRows parts
      (outcome, head ++ body)

/-- The kinds of diagnostics. -/
inductive Tone where
  | info
  | success
  | warning
  | error
  | suggestion
  | debug
deriving DecidableEq

/-- A message in a tone. -/
def Tone.decorate (tone : Tone) (message : String) : String :=
  match tone with
  | .info | .success => message
  | .warning => "Warning: " ++ message
  | .error => "Error: " ++ message
  | .suggestion => "→ " ++ message
  | .debug => "[debug] " ++ message

/-- Whether a message of a tone is shown: warnings and errors always, details only if they are
asked for, everything else unless quiet is asked for. -/
def shows (t : Terminal) : Tone → Bool
  | .warning | .error => true
  | .debug => t.verbose
  | .info | .success | .suggestion => !t.quiet

/-- The diagnostics for a message. -/
def say (t : Terminal) (tone : Tone) (message : String) : String :=
  if t.shows tone then line (tone.decorate message) else ""

/-- What is shown of a call. -/
structure Display where
  outcome : Except Failure Unit
  output : String
  diagnostics : String

/-- What can be asked of a terminal by name. -/
inductive Service where
  | data
  | table
  | message (tone : Tone)
deriving DecidableEq

/-- What a service makes of any values. Data are shown whatever they are. A message has to be a
text, even if it is not shown, but for details, which are looked at only if they are asked for. -/
def serve (t : Terminal) : Service → List Json → Display
  | .data, [v] => ⟨.ok (), line v.shown, ""⟩
  | .table, [headers, rows] | .table, [headers, rows, _] =>
    let (outcome, text) := t.table headers rows
    ⟨outcome, text, ""⟩
  | .message tone, [.str message] => ⟨.ok (), "", t.say tone message⟩
  | .message .debug, [_] =>
    ⟨if t.verbose then .error (.misuse .wrongType) else .ok (), "", ""⟩
  | _, _ => ⟨.error (.misuse .wrongType), "", ""⟩

end Terminal

end ApiGraph
