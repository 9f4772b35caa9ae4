import ApiGraph.Failure
import ApiGraph.Files.Tree

/-! The text of files: bytes that encode characters, with one break for the end of a line. -/

namespace ApiGraph.Files

/-- The misuse that an obstacle is. -/
def Obstacle.misuse : Obstacle → Misuse
  | .missing => .noSuchFile
  | .notDirectory => .notDirectory
  | .isDirectory => .isDirectory
  | .exists => .fileExists
  | .busy => .busy
  | .tooLong => .tooLong
  | .unnameable => .badValue

/-- The text that bytes encode. -/
def decode (bytes : List UInt8) : Except Failure String :=
  match String.fromUTF8? ⟨bytes.toArray⟩ with
  | some s => .ok s
  | none => .error (.misuse .undecodable)

/-- Makes a line feed of every return, and of a return with a line feed behind it. -/
def joinBreaks : List Char → List Char
  | '\r' :: '\n' :: rest => '\n' :: joinBreaks rest
  | '\r' :: rest => '\n' :: joinBreaks rest
  | c :: rest => c :: joinBreaks rest
  | [] => []

/-- The text of the bytes of a file. -/
def textOf (bytes : List UInt8) : Except Failure String := do
  return String.ofList (joinBreaks (← decode bytes).toList)

theorem joinBreaks_no_return (cs : List Char) : '\r' ∉ joinBreaks cs := by
  fun_induction joinBreaks cs with
  | case1 rest ih => simpa using ih
  | case2 rest _ ih => simpa using ih
  | case3 c rest _ hc ih => simpa using ⟨fun h => hc h.symm, ih⟩
  | case4 => simp

end ApiGraph.Files
