import ApiGraph.Dict
import ApiGraph.Files.Place

/-! A tree of files. A place leads through directories only, and two points lead back out of one.
The root, the beginning and what is around it are always there. A file is written as a whole or not
at all. -/

namespace ApiGraph.Files

/-- What stands at a place. -/
inductive Entry where
  | directory
  | file (bytes : List UInt8)
deriving DecidableEq

/-- The files and directories that are there, by the shortest ways to them. -/
abbrev Tree := Dict Place Entry

/-- Why a place cannot be used. -/
inductive Obstacle where
  | missing
  | notDirectory
  | isDirectory
  | exists
  /-- A directory that cannot be replaced. -/
  | busy
  /-- A name or a whole way with too many bytes. -/
  | tooLong
  /-- A name with a character that no name has. -/
  | unnameable
deriving DecidableEq

/-- The obstacle in words. -/
def Obstacle.message : Obstacle → String
  | .missing => "[Errno 2] No such file or directory"
  | .notDirectory => "[Errno 20] Not a directory"
  | .isDirectory => "[Errno 21] Is a directory"
  | .exists => "[Errno 17] File exists"
  | .busy => "[Errno 16] Device or resource busy"
  | .tooLong => "[Errno 36] File name too long"
  | .unnameable => "embedded null byte"

/-- The number of bytes that a name may have. -/
def maxNameSize : Nat := 255

/-- The number of bytes that the text of a whole place may have. -/
def maxPlaceSize : Nat := 4095

/-- The number of bytes that the name of a file has while it is written, over its own. -/
def draftSize : Nat := 14

namespace Tree

/-- What stands at the end of a shortest way. -/
def entry? (t : Tree) (p : Place) : Option Entry :=
  if p.isAround then some .directory else t.lookup p

/-- Follows names from a directory on. The last one may lead to nothing. -/
def follow (t : Tree) (here : Place) : List String → Except Obstacle Place
  | [] => .ok here
  | name :: rest =>
    match t.entry? here with
    | none => .error .missing
    | some (.file _) => .error .notDirectory
    | some .directory =>
      if maxNameSize < name.utf8ByteSize then .error .tooLong
      else follow t (here.step name) rest

/-- The shortest way to a place. No name has the character with the number zero. -/
def locate (t : Tree) (p : Place) : Except Obstacle Place :=
  if p.names.any fun name => name.toList.contains '\x00' then .error .unnameable
  else if maxPlaceSize < p.text.utf8ByteSize then .error .tooLong
  else t.follow ⟨p.origin.settled, []⟩ p.names

/-- The bytes of the file at a place. -/
def read (t : Tree) (p : Place) : Except Obstacle (List UInt8) := do
  match t.entry? (← t.locate p) with
  | none => throw .missing
  | some .directory => throw .isDirectory
  | some (.file bytes) => return bytes

/-- Whether there is a file at a place. -/
def isFile (t : Tree) (p : Place) : Bool := (t.read p).isOk

/-- Whether there is a directory at a place. -/
def isDirectory (t : Tree) (p : Place) : Bool :=
  match t.locate p with
  | .ok here =>
    match t.entry? here with
    | some .directory => true
    | _ => false
  | .error _ => false

/-- Makes one directory inside an existing one. -/
def makeDirectory (t : Tree) (p : Place) : Except Obstacle Tree := do
  let here ← t.locate p
  match t.entry? here with
  | some _ => throw .exists
  | none => return Dict.put t here .directory

/-- Makes one directory inside an existing one unless it is there. -/
def ensureDirectory (t : Tree) (p : Place) : Except Obstacle Tree :=
  match t.makeDirectory p with
  | .error .exists => if t.isDirectory p then .ok t else .error .exists
  | made => made

/-- Makes a directory and those around it, from the inside out until one is there. The names are
given in reverse. -/
def ensureReversed (t : Tree) (origin : Origin) : List String → Except Obstacle Tree
  | [] => .ok t
  | name :: outer =>
    let p : Place := ⟨origin, (name :: outer).reverse⟩
    match t.ensureDirectory p with
    | .error .missing => do
      let t ← t.ensureReversed origin outer
      t.ensureDirectory p
    | made => made

/-- Makes a directory and those around it unless they are there. -/
def ensureDirectories (t : Tree) (p : Place) : Except Obstacle Tree :=
  t.ensureReversed p.origin p.names.reverse

/-- Finds where a file is going to be, with room for what it is called until it is complete. -/
def draft (t : Tree) (p : Place) : Except Obstacle Place := do
  let here ← t.locate p
  if maxNameSize < p.name.utf8ByteSize + draftSize then throw .tooLong
  return here

/-- Puts a file at a place, in the stead of a file that was there. The last name has to be a name
of its own. -/
def replace (t : Tree) (p : Place) (bytes : List UInt8) : Except Obstacle Tree := do
  let here ← t.draft p
  if p.name = "" || p.name = ".." then throw .busy
  match t.entry? here with
  | some .directory => throw .isDirectory
  | _ => return Dict.put t here (.file bytes)

/-- Writes a file and makes the directories around it. The directories stay when the file cannot
be written. -/
def write (t : Tree) (p : Place) (text : String) : Except Obstacle Unit × Tree :=
  match t.ensureDirectories p.parent with
  | .error o => (.error o, t)
  | .ok t =>
    match t.replace p text.toUTF8.toList with
    | .error o => (.error o, t)
    | .ok t => (.ok (), t)

/-- Begins to write a file, as far as that goes when it then has no text: the directories around it
are made. -/
def writeNothing (t : Tree) (p : Place) : Except Obstacle Unit × Tree :=
  match t.ensureDirectories p.parent with
  | .error o => (.error o, t)
  | .ok t => ((t.draft p).map fun _ => (), t)

end Tree

end ApiGraph.Files
