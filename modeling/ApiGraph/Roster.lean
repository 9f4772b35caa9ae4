import ApiGraph.Generator
import ApiGraph.Settings.Basic

/-! The generators that take part in a run. One that cannot be started is left out with a warning;
one that cannot clean up keeps none of the others from it. -/

namespace ApiGraph

/-- The generators that were started, by the names they are installed under. -/
structure Roster where
  members : Dict String Generator
  /-- Which generators did what, in order. -/
  journal : List (String × String)
  warnings : List String

/-- A step with a roster. -/
abbrev Rostering := ExceptT Failure (StateM Roster)

namespace Roster

/-- The roster without generators. -/
def empty : Roster := ⟨[], [], []⟩

/-- Notes what a generator did. -/
def note (label deed : String) : Rostering Unit :=
  modify fun r => { r with journal := r.journal ++ [(label, deed)] }

/-- Adds a warning. -/
def warn (message : String) : Rostering Unit :=
  modify fun r => { r with warnings := r.warnings ++ [message] }

/-- The outcome of a step, which fails no more. -/
def attempt (step : Rostering α) : Rostering (Except Failure α) :=
  ExceptT.mk do return .ok (← ExceptT.run step)

/-- Fails if a generator with a name is there. -/
def requireFree (name : String) : Rostering Unit := do
  if Dict.has (← get).members name then throw (.alreadyLoaded name)

/-- Starts a generator under a name. -/
def engage (name : String) (g : Generator) : Rostering Unit := do
  requireFree name
  ExceptT.mk (pure (g.perform .start))
  note g.label Duty.start.word
  modify fun r => { r with members := Dict.put r.members name g }

/-- Finds, builds and starts a generator. -/
def enlist (name : String) (g : Generator) : Rostering Unit := do
  ExceptT.mk (pure g.make)
  engage name g

/-- The names of those installed generators that take part and can be started. -/
def discover (rules : RosterSettings) : List (String × Generator) → Rostering (List String)
  | [] => return []
  | (name, g) :: rest => do
    if !rules.allows name then discover rules rest
    else
      requireFree name
      match ← attempt (enlist name g) with
      | .ok _ => do
        let others ← discover rules rest
        return name :: others
      | .error f => do
        warn s!"Failed to load generator '{name}': {f.message}"
        discover rules rest

/-- Subscribes generators in order, up to one that fails. -/
def subscribeAll (audience : Audience String) :
    List (String × Generator) → Except Failure Unit × Audience String
  | [] => (.ok (), audience)
  | (_, g) :: rest =>
    match g.subscribe audience with
    | (.error f, audience) => (.error f, audience)
    | (.ok _, audience) => subscribeAll audience rest

/-- Subscribes all members. -/
def subscribe (r : Roster) (audience : Audience String) :
    Except Failure Unit × Audience String :=
  subscribeAll audience r.members

/-- Lets one generator clean up. -/
def dismiss (name : String) (g : Generator) : Rostering Unit := do
  note g.label Duty.cleanUp.word
  match g.perform .cleanUp with
  | .ok _ => return
  | .error f => warn s!"Error cleaning up generator '{name}': {f.message}"

/-- Lets all members clean up, and forgets them. -/
def disband : Rostering Unit := do
  (← get).members.forM fun p => dismiss p.1 p.2
  modify fun r => { r with members := [] }

end Roster

end ApiGraph
