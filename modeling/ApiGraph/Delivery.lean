import ApiGraph.Resolve.Basic
import ApiGraph.Snapshot

/-! The delivery of entities. Listeners subscribe to a category and get its entities one by one,
in the order of their subscriptions; one that fails ends the delivery there and then. -/

namespace ApiGraph

/-- Someone who listens, known by a tag. -/
structure Listener (τ : Type) where
  tag : τ
  /-- The number of entities it takes before it fails, and the message of that failure. -/
  limit : Option (Nat × String)

/-- The listeners of each category. -/
abbrev Audience (τ : Type) := Dict Kind (List (Listener τ))

namespace Audience

/-- The listeners of a category, in the order of their subscriptions. -/
def of (a : Audience τ) (category : Kind) : List (Listener τ) := (a.lookup category).getD []

/-- The audience with one more listener. -/
def subscribe (a : Audience τ) (category : Kind) (l : Listener τ) : Audience τ :=
  Dict.put a category (a.of category ++ [l])

end Audience

/-- What happens while entities are delivered. -/
structure Stage (τ : Type) where
  audience : Audience τ
  snapshot : Snapshot
  /-- Who got what, in order. -/
  heard : List (τ × String)
  warnings : List String

/-- A delivery, which may be ended by a listener. -/
abbrev Delivering (τ : Type) (α : Type) := ExceptT Failure (StateM (Stage τ)) α

namespace Delivering

/-- Notes that a listener got an entity. -/
def hear (tag : τ) (label : String) : Delivering τ Unit :=
  modify fun s => { s with heard := s.heard ++ [(tag, label)] }

/-- Gives an entity to one listener, which counts it. -/
def give (e : Entity) (l : Listener τ) : Delivering τ (Listener τ) := do
  match l.limit with
  | none => hear l.tag e.label; return l
  | some (0, message) => throw (.planned message)
  | some (n + 1, message) => hear l.tag e.label; return { l with limit := some (n, message) }

/-- Gives an entity to the listeners of a category that have not got it yet. -/
def giveFrom (category : Kind) (e : Entity) :
    List (Listener τ) → List (Listener τ) → Delivering τ Unit
  | _, [] => pure ()
  | done, l :: rest => do
    let l ← give e l
    modify fun s => { s with audience := Dict.put s.audience category (done ++ l :: rest) }
    giveFrom category e (done ++ [l]) rest

/-- Gives an entity to the listeners of a category. -/
def deliver (category : Kind) (e : Entity) : Delivering τ Unit := do
  giveFrom category e [] ((← get).audience.of category)

/-- Records an entity under a category and delivers it. -/
def emitUnder (e : Entity) (category : Kind) : Delivering τ Unit := do
  modify fun s => { s with snapshot := s.snapshot.record category e }
  deliver category e

/-- Records and delivers an entity, category by category. -/
def emit (categories : List Kind) (e : Entity) : Delivering τ Unit :=
  categories.forM (emitUnder e)

/-- Records and delivers an entity under categories given by their words; a word that names none
ends the delivery. -/
def emitNamed (words : List String) (e : Entity) : Delivering τ Unit :=
  words.forM fun w =>
    match Kind.ofWord? w with
    | some category => emitUnder e category
    | none => throw (.misuse .badValue)

/-- Delivers the entities of a snapshot again, category by category. -/
def replay (s : Snapshot) : Delivering τ Unit := s.deliveries.forM fun p => deliver p.1 p.2

/-- Acts upon a notice of a run. -/
def act : Notice → Delivering τ Unit
  | .entity categories e => emit categories e
  | .warning text => modify fun s => { s with warnings := s.warnings ++ [text] }

/-- Acts upon the notices of a run, in order. -/
def play (notices : List Notice) : Delivering τ Unit := notices.forM act

end Delivering

end ApiGraph
