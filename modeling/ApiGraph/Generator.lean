import ApiGraph.Delivery

/-! Generators: what is installed beside this library to make something of the entities of a run.
A generator is found, built and started; it subscribes to categories of entities; in the end it is
told to clean up. It may fail at any of these duties. -/

namespace ApiGraph

/-- What a generator has to do, in order. -/
inductive Duty where
  | load
  | build
  | start
  | subscribe
  | listen
  | cleanUp
deriving DecidableEq

namespace Duty

/-- The word for a duty. -/
def word : Duty → String
  | .load => "load"
  | .build => "ctor"
  | .start => "init"
  | .subscribe => "register"
  | .listen => "listener"
  | .cleanUp => "cleanup"

/-- The duty with a word. -/
def ofWord? (w : String) : Option Duty :=
  [load, build, start, subscribe, listen, cleanUp].find? fun d => d.word == w

end Duty

/-- A generator, with the words of the categories it listens to. -/
structure Generator where
  label : String
  version : String
  description : String
  listens : List String
  /-- The duty it fails at. -/
  failsAt : Option Duty

namespace Generator

/-- Does a duty, or fails at it. -/
def perform (g : Generator) (d : Duty) : Except Failure Unit :=
  if g.failsAt = some d then .error (.planned d.word) else .ok ()

/-- Finds and builds a generator. -/
def make (g : Generator) : Except Failure Unit := do
  g.perform .load
  g.perform .build

/-- The listener of a generator. -/
def listener (g : Generator) : Listener String :=
  ⟨g.label, if g.failsAt = some .listen then some (0, Duty.listen.word) else none⟩

/-- Subscribes the generator to the categories with some words, up to one that names none. -/
def subscribeTo (g : Generator) (audience : Audience String) :
    List String → Except Failure Unit × Audience String
  | [] => (.ok (), audience)
  | w :: rest =>
    match Kind.ofWord? w with
    | none => (.error (.misuse .badValue), audience)
    | some category => g.subscribeTo (audience.subscribe category g.listener) rest

/-- Subscribes the generator to its categories. -/
def subscribe (g : Generator) (audience : Audience String) :
    Except Failure Unit × Audience String :=
  match g.perform .subscribe with
  | .error f => (.error f, audience)
  | .ok _ => g.subscribeTo audience g.listens

end Generator

end ApiGraph
