import ApiGraph.Inspection

/-! The arguments of a run: options, then a command, then the options and the words of the command.
Each option may also be written behind the words, but not before the command that it belongs to;
after two dashes everything is a word. -/

namespace ApiGraph.CommandLine

/-- An option, by what it asks for. -/
inductive Flag where
  | json
  | plain
  | noColor
  | quiet
  | verbose
  | version
  | help
  | replay
  | noCache
deriving DecidableEq

/-- The options before a command. -/
def generalFlags : List (String × Flag) :=
  [("--version", .version), ("--json", .json), ("--plain", .plain), ("--no-color", .noColor),
    ("--quiet", .quiet), ("-q", .quiet), ("--verbose", .verbose), ("-v", .verbose),
    ("--help", .help)]

/-- The only option of most commands. -/
def helpFlags : List (String × Flag) := [("--help", .help)]

/-- The options of the command that resolves a document. -/
def parseFlags : List (String × Flag) :=
  [("--replay", .replay), ("--no-cache", .noCache), ("--help", .help)]

/-- How the program is called. -/
def usage : String :=
  "Usage: specgraph [--version] [--json | --plain] [--no-color] [-q] [-v] COMMAND\n" ++
  "\n" ++
  "  parse INPUT [OUTPUT] [--replay] [--no-cache]   resolve a document into a snapshot\n" ++
  "  inspect (models | methods | paths) INPUT       show what a document resolves to\n" ++
  "  generators                                     list the installed generators\n"

/-- What a run has to do. -/
inductive Command where
  /-- Resolve a document, or deliver a snapshot again. -/
  | parse (source : String) (output : Option String) (replay noCache : Bool)
  /-- Show a view of what a document resolves to. -/
  | inspect (view : View) (source : String)
  /-- List the generators. -/
  | generators

/-- How a run is called. -/
inductive Call where
  /-- The arguments mean nothing. -/
  | misused
  /-- The version is asked for. -/
  | version
  /-- An explanation of the options is asked for. -/
  | help
  | command (flags : List Flag) (c : Command)

/-- Whether an argument is written like an option. -/
def isOption (arg : String) : Bool :=
  match arg.toList with
  | '-' :: _ :: _ => true
  | _ => false

/-- The options that one argument stands for: a long one, or letters behind one dash. -/
def flagsOf (known : List (String × Flag)) (arg : String) : Option (List Flag) :=
  match known.lookup arg, arg.toList with
  | some f, _ => some [f]
  | none, '-' :: '-' :: _ => none
  | none, _ :: letters => letters.mapM fun c => known.lookup (String.ofList ['-', c])
  | none, [] => none

/-- Options and words apart. If they may not be mixed, everything after the first word is a
word. -/
def sortOut (known : List (String × Flag)) (mixed : Bool) :
    List String → Option (List Flag × List String)
  | [] => some ([], [])
  | arg :: rest =>
    if arg = "--" then some ([], rest)
    else if isOption arg then do
      let found ← flagsOf known arg
      let (flags, words) ← sortOut known mixed rest
      return (found ++ flags, words)
    else if mixed then do
      let (flags, words) ← sortOut known mixed rest
      return (flags, arg :: words)
    else some ([], arg :: rest)

/-- What is asked for before anything else: the first option that asks for the version or for
help. -/
def first? (flags : List Flag) : Option Call :=
  flags.findSome? fun f =>
    match f with
    | .version => some .version
    | .help => some .help
    | _ => none

/-- The call for words that name no command. A first word that is written like an option is taken
for one, even behind two dashes. -/
def unknownCall (known : List (String × Flag)) (words : List String) : Call :=
  match sortOut known false words with
  | some (flags, _) => (first? flags).getD .misused
  | none => .misused

/-- The call of the command that resolves a document. -/
def parseCall (general : List Flag) (args : List String) : Call :=
  match sortOut parseFlags true args with
  | none => .misused
  | some (flags, words) =>
    let command (source : String) (output : Option String) : Call :=
      .command general (.parse source output (flags.contains .replay) (flags.contains .noCache))
    match first? flags, words with
    | some call, _ => call
    | none, [source] => command source none
    | none, [source, output] => command source (some output)
    | none, _ => .misused

/-- The call of a command with one word. -/
def viewCall (general : List Flag) (view : View) (args : List String) : Call :=
  match sortOut helpFlags true args with
  | none => .misused
  | some (flags, words) =>
    match first? flags, words with
    | some call, _ => call
    | none, [source] => .command general (.inspect view source)
    | none, _ => .misused

/-- The call of the command that shows views. -/
def inspectCall (general : List Flag) (args : List String) : Call :=
  match sortOut helpFlags false args with
  | none => .misused
  | some (flags, words) =>
    match first? flags, words with
    | some call, _ => call
    | none, [] => .misused
    | none, word :: rest =>
      match View.ofWord? word with
      | some view => viewCall general view rest
      | none => unknownCall helpFlags (word :: rest)

/-- The call of the command that lists the generators. -/
def generatorsCall (general : List Flag) (args : List String) : Call :=
  match sortOut helpFlags true args with
  | some (flags, []) => (first? flags).getD (.command general .generators)
  | some (flags, _) => (first? flags).getD .misused
  | none => .misused

/-- How a run with some arguments is called. -/
def Call.ofArguments (args : List String) : Call :=
  match sortOut generalFlags false args with
  | none => .misused
  | some (flags, words) =>
    match first? flags, words with
    | some call, _ => call
    | none, "parse" :: rest => parseCall flags rest
    | none, "inspect" :: rest => inspectCall flags rest
    | none, "generators" :: rest => generatorsCall flags rest
    | none, words => unknownCall generalFlags words

end ApiGraph.CommandLine
