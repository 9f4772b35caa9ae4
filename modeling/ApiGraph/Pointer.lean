import ApiGraph.Json.Basic
import ApiGraph.Number.Integer
import ApiGraph.Text.Words

/-! References into a document: after the number sign, segments between slashes, in which a
tilde is written `~0` and a slash `~1`. -/

namespace ApiGraph.Pointer

open Text

/-- Whether a reference is meant to be followed inside the document. -/
def isLocal (ref : String) : Bool :=
  match ref.toList with
  | c :: _ => c == '.' || c == '#' || c == '/'
  | [] => false

/-- Writes a key as a segment. -/
def escape : List Char → List Char
  | [] => []
  | c :: rest =>
    if c = '~' then '~' :: '0' :: escape rest
    else if c = '/' then '~' :: '1' :: escape rest
    else c :: escape rest

/-- The key that a segment writes. -/
def unescape : List Char → List Char
  | [] => []
  | '~' :: '1' :: rest => '/' :: unescape rest
  | '~' :: '0' :: rest => '~' :: unescape rest
  | c :: rest => c :: unescape rest

/-- The part of a reference after its first number sign, or all of it when it has none. -/
def fragment (ref : List Char) : List Char :=
  match ref.dropWhile (· ≠ '#') with
  | [] => ref
  | _ :: rest => rest

/-- The keys that a reference goes through. -/
def segments (ref : String) : List String :=
  match (fragment ref.toList).dropWhile (· == '/') with
  | [] => []
  | path => (split '/' path).map fun segment => String.ofList (unescape segment)

/-- The reference of a declared component. -/
def component (sec name : String) : String :=
  s!"#/components/{sec}/" ++ String.ofList (escape name.toList)

/-- The whole number that a segment writes. -/
def index? (segment : List Char) : Option Int := Integer.ofText? 10 segment

/-- The item at an index; a negative index counts from the end. -/
def item? (items : List Json) (i : Int) : Option Json :=
  if 0 ≤ i then items[i.toNat]?
  else if (-i).toNat ≤ items.length then items[items.length - (-i).toNat]?
  else none

/-- One step from a value along a segment. -/
def step (v : Json) (segment : String) : Option Json :=
  match v with
  | .obj entries => entries.lookup segment
  | .arr items => (index? segment.toList).bind (item? items)
  | _ => none

/-- The value that a reference into the document leads to. -/
def resolve (root : Json) (ref : String) : Option Json :=
  if ref.toList.head? = some '#' then (segments ref).foldlM step root else none

/-- Only what reads as a reference into the document leads anywhere. -/
theorem isLocal_of_resolve {root target : Json} {ref : String} (leads : resolve root ref = some target) :
    isLocal ref = true := by
  unfold resolve at leads
  split at leads
  · next sign =>
    obtain ⟨rest, hr⟩ := List.head?_eq_some_iff.1 sign
    unfold isLocal
    rw [hr]
    rfl
  · cases leads

theorem unescape_escape (cs : List Char) : unescape (escape cs) = cs := by
  induction cs with
  | nil => rfl
  | cons c rest ih =>
    by_cases h : c = '~'
    · simp [escape, h, unescape, ih]
    · by_cases h' : c = '/'
      · simp [escape, h', unescape, ih]
      · have : escape (c :: rest) = c :: escape rest := by simp [escape, h, h']
        rw [this, unescape, ih]
        all_goals grind

end ApiGraph.Pointer
