import ApiGraph.Yaml.Node.Reader
import ApiGraph.Yaml.Value

/-! The value of a document. The nodes are surveyed level by level from the root on, so that of
two flaws the one nearer to the root is found; on the way mappings take over the entries of those
that they merge. What a survey has passed has a value. -/

namespace ApiGraph.Yaml

/-- How far the nodes of a document have been surveyed. -/
structure Survey where
  nodes : Array Node
  /-- The values of single texts. -/
  values : Array (Option Datum)
  /-- The nodes that are no numbers although their texts are other than the mark for that. -/
  strays : List Nat
  /-- The nodes that were met. -/
  met : List Nat
  /-- The collections on the next level. -/
  pending : Array Nat

namespace Survey

/-- A step on the way. -/
abbrev Surveying := StateT Survey (Except Flaw)

/-- The node at a place. -/
def nodeAt (i : Nat) : Surveying Node := do
  match (← get).nodes[i]? with
  | some n => return n
  | none => throw .malformed

/-- Replaces the node at a place. -/
def replace (i : Nat) (n : Node) : Surveying Unit :=
  modify fun s => { s with nodes := s.nodes.setIfInBounds i n }

/-- The entries of a mapping. -/
def entriesAt (i : Nat) : Surveying (List (Nat × Nat)) := do
  match ← nodeAt i with
  | .map _ entries => return entries
  | _ => throw .malformed

/-- The text of a node. A mapping has the text of its default entry. -/
def textAt : Nat → Nat → Surveying String
  | 0, _ => throw (.value .endless)
  | fuel + 1, i => do
    match ← nodeAt i with
    | .scalar _ text => return text
    | .list .. => throw .malformed
    | .map _ entries => do
      match ← entries.findM? fun p => return (← nodeAt p.1).tag = .default with
      | some (_, v) => textAt fuel v
      | none => throw .malformed

/-- Finds the value of a node of a single text, and leaves a collection for later. -/
def visit (i : Nat) : Surveying Unit := do
  if (← get).met.contains i then return
  let n ← nodeAt i
  if n.tag.isCollection then
    modify fun s => { s with met := i :: s.met, pending := s.pending.push i }
  else
    if !n.tag.isText then throw .malformed
    let text ← textAt ((← get).nodes.size + 1) i
    if n.tag = .timestamp && !n.isScalar then throw (.value .wrongType)
    let v ← Value.ofText n.tag text
    let isStray := n.tag = .float && v.isNan && !Value.isNanMark text.toList
    modify fun s =>
      { s with
        met := i :: s.met
        values := s.values.setIfInBounds i (some v)
        strays := if isStray then i :: s.strays else s.strays }

/-- Gives a default key the type of a text. -/
def settleKey (k : Nat) : Surveying Unit := do
  match ← nodeAt k with
  | .scalar _ text => replace k (.scalar .text text)
  | .list _ items => replace k (.list .text items)
  | .map _ entries => replace k (.map .text entries)

/-- Takes the entries that are merged into the mapping at a place out of the mappings that they
come from, beginning at an entry. `merged` are those found so far; they come first. -/
def mergeFrom : Nat → Nat → Nat → List (Nat × Nat) → Surveying Unit
  | 0, _, _, _ => throw (.value .endless)
  | fuel + 1, i, start, merged => do
    let entries ← entriesAt i
    match entries[start]? with
    | none => if !merged.isEmpty then replace i (.map (← nodeAt i).tag (merged ++ entries))
    | some (k, v) =>
      match (← nodeAt k).tag with
      | .merge => do
        replace i (.map (← nodeAt i).tag (entries.eraseIdx start))
        let taken ←
          match ← nodeAt v with
          | .map .. => do
            mergeFrom fuel v 0 []
            entriesAt v
          | .list _ items => do
            let parts ← items.mapM fun j => do
              let _ ← entriesAt j
              mergeFrom fuel j 0 []
              entriesAt j
            pure parts.reverse.flatten
          | .scalar .. => throw .malformed
        mergeFrom fuel i start (merged ++ taken)
      | .default => do
        settleKey k
        mergeFrom fuel i (start + 1) merged
      | _ => mergeFrom fuel i (start + 1) merged

/-- Visits the nodes inside a collection. Keys are single texts. -/
def expand (i : Nat) : Surveying Unit := do
  let size := (← get).nodes.size + 2
  match ← nodeAt i with
  | .list .list items => items.forM visit
  | .list .orderedMap items | .list .pairs items =>
    items.forM fun j => do
      match ← nodeAt j with
      | .map _ [(k, v)] => do
        visit k
        visit v
      | _ => throw .malformed
  | .map .map _ | .map .set _ => do
    mergeFrom (size * size) i 0 []
    (← entriesAt i).forM fun p => do
      visit p.1
      if (← nodeAt p.1).tag.isCollection then throw .malformed
      visit p.2
  | _ => throw .malformed

/-- Expands the levels from the next one on. -/
def levels : Nat → Surveying Unit
  | 0 => return
  | fuel + 1 => do
    let level := (← get).pending
    if level.isEmpty then return
    modify fun s => { s with pending := #[] }
    level.forM expand
    levels fuel

/-- The survey of all that can be reached from a node. -/
def ofDocument (d : Document) (root : Nat) : Except Flaw Survey := do
  let survey := do
    visit root
    levels (d.nodes.size + 1)
  let (_, s) ← survey.run ⟨d.nodes, Array.replicate d.nodes.size none, [], [], #[]⟩
  return s

/-- Whether two keys of a mapping, each with its node, are the same. A stray is the same as no
other node. -/
def sameKey (s : Survey) (a b : Nat × Datum) : Bool :=
  if s.strays.contains a.1 || s.strays.contains b.1 then a.1 == b.1 else a.2.sameKey b.2

/-- Gives a key a value, in its old place when it has one and at the end otherwise. -/
def put (s : Survey) (k : Nat × Datum) (v : Datum) :
    List ((Nat × Datum) × Datum) → List ((Nat × Datum) × Datum)
  | [] => [(k, v)]
  | (k', v') :: rest =>
    if s.sameKey k k' then (k', v) :: rest else (k', v') :: s.put k v rest

/-- The entries of a mapping, each with its key once, by the values of nodes. -/
def mapping (s : Survey) (value : Nat → Datum) (entries : List (Nat × Nat)) :
    List (Datum × Datum) :=
  (entries.foldl (fun d p => s.put (p.1, value p.1) (value p.2) d) []).map fun p => (p.1.2, p.2)

/-- The value of a node inside the nodes on a path. A node inside itself is a cycle. The fuel
bounds the length of the path and is enough when it exceeds the number of nodes. -/
def value (s : Survey) : Nat → List Nat → Nat → Datum
  | 0, _, _ => .cycle false
  | fuel + 1, path, i =>
    if path.contains i then .cycle ((s.nodes[i]?).any Node.isList)
    else
      let inner := value s fuel (i :: path)
      match (s.values[i]?).join, s.nodes[i]? with
      | some v, _ => v
      | none, some (.list .list items) => .list (items.map inner)
      | none, some (.list _ items) =>
        let pair (j : Nat) : Datum :=
          match s.nodes[j]? with
          | some (.map _ [(k, v)]) => .pair (inner k) (inner v)
          | _ => .null
        .list (items.map pair)
      | none, some (.map .set entries) =>
        .set ((s.mapping inner entries).map Prod.fst)
      | none, some (.map _ entries) => .map (s.mapping inner entries)
      | none, _ => .null

/-- The value of the node that makes up a document. It is not on the path to the values under it,
so that each of them is whole even if it leads back to all of them. -/
def rootValue (s : Survey) (root : Nat) : Datum :=
  let inner := s.value (s.nodes.size + 1) []
  match s.nodes[root]? with
  | some (.map .map entries) => .map (s.mapping inner entries)
  | _ => inner root

end Survey

/-- The value of a document; a text of comments is nothing. -/
def Document.value (d : Document) : Except Flaw Datum := do
  match d.root with
  | none => return .null
  | some root =>
    let s ← Survey.ofDocument d root
    return s.rootValue root

/-- The value that a text writes. -/
def read (text : String) : Except Flaw Datum := do
  let d ← Document.ofText text
  d.value

end ApiGraph.Yaml
