import ApiGraph.Yaml.Node
import ApiGraph.Yaml.Token.Lexer

/-! The nodes that tokens make up. Where a node is missing behind the mark of an item, a key or a
value there is an empty text. -/

namespace ApiGraph.Yaml

/-- How far the tokens of a document have become nodes. -/
structure Draft where
  tokens : List Token
  nodes : Array Node
  names : List (String × Nat)
  handles : List (String × String)

namespace Draft

/-- A step on the way. -/
abbrev Reading := StateT Draft (Except Flaw)

/-- The next token. -/
def peek : Reading Token := do
  match (← get).tokens with
  | [] => throw .malformed
  | .broken flaw :: _ => throw flaw
  | t :: _ => return t

/-- Goes on after the next token. -/
def drop : Reading Unit := modify fun d => { d with tokens := d.tokens.drop 1 }

/-- Adds a node. -/
def add (n : Node) : Reading Nat := do
  let d ← get
  set { d with nodes := d.nodes.push n }
  return d.nodes.size

/-- Adds the node that stands where there is none. -/
def absent : Reading Nat := add (.scalar .null "")

/-- Gives a name to the node that is added next; no two nodes share one. -/
def announce (name : String) : Reading Unit := do
  let d ← get
  if (d.names.lookup name).isSome then throw .malformed
  set { d with names := (name, d.nodes.size) :: d.names }

/-- The node with a name. -/
def named (name : String) : Reading Nat := do
  match (← get).names.lookup name with
  | some i => return i
  | none => throw .malformed

/-- Replaces a node that was added. -/
def fill (i : Nat) (n : Node) : Reading Unit :=
  modify fun d => { d with nodes := d.nodes.setIfInBounds i n }

/-- The full name of a type. -/
def fullName (t : TagName) : Reading String := do
  match t.handle with
  | none => return t.rest
  | some h =>
    match (← get).handles.lookup h with
    | some space => return space ++ t.rest
    | none => throw .malformed

/-- What stands before a node: its name and its type. -/
structure Marks where
  name : Option String
  type : Option String

/-- Whether nothing stands before a node. -/
def Marks.isEmpty (m : Marks) : Bool := m.name.isNone && m.type.isNone

/-- The name of a node, if one stands here. -/
def nameMark : Reading (Option String) := do
  match ← peek with
  | .anchor n => do
    drop
    return some n
  | _ => return none

/-- The type of a node, if one stands here. -/
def typeMark : Reading (Option TagName) := do
  match ← peek with
  | .tag t => do
    drop
    return some t
  | _ => return none

/-- The marks that stand here, in either order. -/
def marks : Reading Marks := do
  let early ← nameMark
  let type ← typeMark
  let late ← if early.isNone && type.isSome then nameMark else pure none
  let full ←
    match type with
    | none => pure none
    | some t => some <$> fullName t
  return ⟨early.or late, full⟩

/-- The type of a collection. The type `!` leaves the choice open. -/
def Marks.collection (m : Marks) (usual : Tag) : Tag :=
  match m.type with
  | none | some "!" => usual
  | some name => .ofName name

/-- The type of a text. -/
def Marks.scalar (m : Marks) (text : String) (plain : Bool) : Tag :=
  match m.type with
  | none => if plain then .ofPlain text.toList else .text
  | some "!" => .ofPlain text.toList
  | some name => .ofName name

/-- The node that is read from here on, or nothing before some tokens. -/
def unlessAt (stops : List Token) (read : Reading Nat) : Reading Nat := do
  if stops.contains (← peek) then absent else read

/-- The node behind a mark, if the mark stands here. -/
def behind (mark : Token) (read : Reading Nat) : Reading Nat := do
  if (← peek) = mark then do
    drop
    read
  else absent

/-- Goes on after a token that has to stand here. -/
def expect (t : Token) : Reading Unit := do
  if (← peek) = t then drop else throw .malformed

mutual

/-- The node that begins here. A block is read only where `block` allows one, and items without
indentation where `bare` allows them. The fuel bounds the depth of nodes and is enough when it
exceeds four times the number of tokens. -/
def node : Nat → Bool → Bool → Reading Nat
  | 0, _, _ => throw .malformed
  | fuel + 1, block, bare => do
    match ← peek with
    | .alias name => do
      drop
      named name
    | _ => do
      let m ← marks
      let next ← peek
      m.name.forM announce
      match next with
      | .scalar text plain => do
        drop
        add (.scalar (m.scalar text plain) text)
      | .flowList => do
        drop
        let i ← absent
        fill i (.list (m.collection .list) (← flowItems fuel true))
        return i
      | .flowMap => do
        drop
        let i ← absent
        fill i (.map (m.collection .map) (← flowEntries fuel true))
        return i
      | .blockList => do
        if !block then throw .malformed
        drop
        let i ← absent
        fill i (.list (m.collection .list) (← blockItems fuel))
        return i
      | .blockMap => do
        if !block then throw .malformed
        drop
        let i ← absent
        fill i (.map (m.collection .map) (← blockEntries fuel))
        return i
      | t => do
        if bare && t = .item then do
          let i ← absent
          fill i (.list (m.collection .list) (← bareItems fuel))
          return i
        else if m.isEmpty then throw .malformed
        else add (.scalar (m.scalar "" true) "")

/-- The items of an indented block. -/
def blockItems : Nat → Reading (List Nat)
  | 0 => throw .malformed
  | fuel + 1 => do
    if (← peek) = .blockEnd then do
      drop
      return []
    else do
      expect .item
      let i ← unlessAt [.item, .blockEnd] (node fuel true false)
      return i :: (← blockItems fuel)

/-- The items of a block that is not indented; its end has no mark. -/
def bareItems : Nat → Reading (List Nat)
  | 0 => throw .malformed
  | fuel + 1 => do
    if (← peek) = .item then do
      drop
      let i ← unlessAt [.item, .key, .value, .blockEnd] (node fuel true false)
      return i :: (← bareItems fuel)
    else return []

/-- The entries of a block. -/
def blockEntries : Nat → Reading (List (Nat × Nat))
  | 0 => throw .malformed
  | fuel + 1 => do
    if (← peek) = .blockEnd then do
      drop
      return []
    else do
      expect .key
      let part := unlessAt [.key, .value, .blockEnd] (node fuel true true)
      let k ← part
      let v ← behind .value part
      return (k, v) :: (← blockEntries fuel)

/-- The items between brackets, each after a comma but for the first. A single entry can stand for
a mapping of its own. -/
def flowItems : Nat → Bool → Reading (List Nat)
  | 0, _ => throw .malformed
  | fuel + 1, first => do
    if (← peek) = .flowListEnd then do
      drop
      return []
    else do
      if !first then expect .comma
      match ← peek with
      | .flowListEnd => do
        drop
        return []
      | .key => do
        drop
        let k ← unlessAt [.value, .comma, .flowListEnd] (node fuel false false)
        let v ← behind .value (unlessAt [.comma, .flowListEnd] (node fuel false false))
        let i ← add (.map .map [(k, v)])
        return i :: (← flowItems fuel false)
      | _ => do
        let i ← node fuel false false
        return i :: (← flowItems fuel false)

/-- The entries between braces, each after a comma but for the first. -/
def flowEntries : Nat → Bool → Reading (List (Nat × Nat))
  | 0, _ => throw .malformed
  | fuel + 1, first => do
    if (← peek) = .flowMapEnd then do
      drop
      return []
    else do
      if !first then expect .comma
      match ← peek with
      | .flowMapEnd => do
        drop
        return []
      | .key => do
        drop
        let k ← unlessAt [.value, .comma, .flowMapEnd] (node fuel false false)
        let v ← behind .value (unlessAt [.comma, .flowMapEnd] (node fuel false false))
        return (k, v) :: (← flowEntries fuel false)
      | _ => do
        let k ← node fuel false false
        let v ← absent
        return (k, v) :: (← flowEntries fuel false)

end

/-- The handles that every document knows. -/
def usualHandles : List (String × String) := [("!", "!"), ("!!", Tag.space)]

/-- Reads the directives: one version at most, of which the first number is one, and one rule at
most for each handle. -/
def directives : Nat → Bool → List (String × String) → Reading Unit
  | 0, _, _ => throw .malformed
  | fuel + 1, versioned, rules => do
    match ← peek with
    | .directive d => do
      drop
      match d with
      | .version major =>
        if versioned || major ≠ 1 then throw .malformed
        directives fuel true rules
      | .handle name space =>
        if (rules.lookup name).isSome then throw .malformed
        directives fuel versioned ((name, space) :: rules)
      | .other => directives fuel versioned rules
    | _ => modify fun d => { d with handles := rules ++ usualHandles }

/-- Goes on after the marks that end a document. -/
def dropEnds : Reading Unit :=
  modify fun d => { d with tokens := d.tokens.dropWhile (· = .documentEnd) }

/-- The node of the only document. -/
def root : Reading (Option Nat) := do
  let size := (← get).tokens.length
  let body := node (4 * size + 4) true false
  match ← peek with
  | .streamEnd => return none
  | t => do
    let i ←
      match t with
      | .directive _ | .documentStart => do
        directives (size + 1) false []
        expect .documentStart
        match ← peek with
        | .directive _ | .documentStart | .documentEnd | .streamEnd => absent
        | _ => body
      | _ => body
    dropEnds
    expect .streamEnd
    return some i

end Draft

/-- The document that a text holds. -/
def Document.ofText (text : String) : Except Flaw Document := do
  let (i, d) ← Draft.root.run ⟨Token.ofText text, #[], [], Draft.usualHandles⟩
  return ⟨d.nodes, i⟩

end ApiGraph.Yaml
