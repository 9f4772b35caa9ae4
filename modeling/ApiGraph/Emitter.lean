import ApiGraph.Delivery

/-! Emitters. An emitter delivers entities to the listeners of a table and records them in a snapshot
of its own. Emitters that were forked from one another refer to the same table. -/

namespace ApiGraph

/-- An emitter, with the place of the table that its listeners stand in. -/
structure Emitter where
  table : Nat
  snapshot : Snapshot

/-- All emitters and tables of listeners, each known by its place. -/
structure Emitters (τ : Type) where
  tables : List (Audience τ)
  members : List Emitter

namespace Emitters

/-- No emitters. -/
def empty : Emitters τ := ⟨[], []⟩

/-- The emitter at a place. -/
def member (s : Emitters τ) (x : Nat) : Except Failure Emitter :=
  match s.members[x]? with
  | some m => .ok m
  | none => .error (.misuse .missingKey)

/-- The listeners that stand in a table. -/
def listeners (s : Emitters τ) (table : Nat) : Audience τ := (s.tables[table]?).getD []

/-- The listeners of the emitter at a place. -/
def audience (s : Emitters τ) (x : Nat) : Audience τ :=
  match s.members[x]? with
  | some m => s.listeners m.table
  | none => []

/-- The snapshot of the emitter at a place. -/
def snapshot (s : Emitters τ) (x : Nat) : Snapshot :=
  match s.members[x]? with
  | some m => m.snapshot
  | none => .empty

/-- What is done with emitters. -/
inductive Deed (τ : Type) where
  /-- An emitter is made, with a table of its own. -/
  | create
  /-- An emitter is made that shares the table of another one and has recorded nothing yet. -/
  | fork (x : Nat)
  /-- A listener subscribes to the category with a word. -/
  | on (x : Nat) (word : String) (l : Listener τ)
  /-- An emitter records and delivers an entity, under the categories with some words. -/
  | emit (x : Nat) (words : List String) (e : Entity)
  /-- An emitter delivers the entities of a snapshot again. -/
  | replay (x : Nat) (snapshot : Snapshot)

/-- What has become of a deed: whether it failed, the emitters afterwards, and who heard what. -/
structure Result (τ : Type) where
  outcome : Except Failure Unit
  emitters : Emitters τ
  heard : List (τ × String)

/-- A deed that leaves everything as it was. -/
def idle (s : Emitters τ) (outcome : Except Failure Unit) : Result τ := ⟨outcome, s, []⟩

/-- The emitters with one more. -/
def add (s : Emitters τ) (m : Emitter) : Emitters τ := { s with members := s.members ++ [m] }

/-- A delivery by an emitter. -/
def run (s : Emitters τ) (x : Nat) (action : Delivering τ Unit) : Result τ :=
  match s.member x with
  | .error f => s.idle (.error f)
  | .ok m =>
    let (outcome, t) := action.run.run ⟨s.listeners m.table, m.snapshot, [], []⟩
    ⟨outcome, ⟨s.tables.set m.table t.audience, s.members.set x { m with snapshot := t.snapshot }⟩,
      t.heard⟩

/-- Does a deed. -/
def perform (s : Emitters τ) : Deed τ → Result τ
  | .create => ⟨.ok (), { s with tables := s.tables ++ [[]] }.add ⟨s.tables.length, .empty⟩, []⟩
  | .fork x =>
    match s.member x with
    | .error f => s.idle (.error f)
    | .ok m => ⟨.ok (), s.add ⟨m.table, .empty⟩, []⟩
  | .on x word l =>
    match s.member x, Kind.ofWord? word with
    | .error f, _ => s.idle (.error f)
    | .ok _, none => s.idle (.error (.misuse .badValue))
    | .ok m, some category =>
      ⟨.ok (), { s with tables := s.tables.set m.table ((s.listeners m.table).subscribe category l) },
        []⟩
  | .emit x words e => s.run x (.emitNamed words e)
  | .replay x snapshot => s.run x (.replay snapshot)

/-- The emitters after some deeds. -/
def after (s : Emitters τ) (deeds : List (Deed τ)) : Emitters τ :=
  deeds.foldl (fun s d => (s.perform d).emitters) s

end Emitters

end ApiGraph
