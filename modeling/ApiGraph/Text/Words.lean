/-! Word characters of ASCII and the cutting of text at a separator. -/

namespace ApiGraph.Text

/-- Whether the character is an ASCII letter or digit or the underscore. -/
def isWord (c : Char) : Bool := c.isAlphanum || c == '_'

/-- Keeps the word characters. -/
def keepWords (cs : List Char) : List Char := cs.filter isWord

/-- The pieces between the occurrences of a separator, empty ones included. -/
def split (sep : Char) : List Char → List (List Char)
  | [] => [[]]
  | c :: rest =>
    match split sep rest with
    | [] => [[c]]
    | piece :: pieces => if c = sep then [] :: piece :: pieces else (c :: piece) :: pieces

/-- The pieces with a separator between each two. -/
def join (sep : List Char) : List (List Char) → List Char
  | [] => []
  | [piece] => piece
  | piece :: next :: rest => piece ++ sep ++ join sep (next :: rest)

theorem split_ne_nil (sep : Char) (cs : List Char) : split sep cs ≠ [] := by
  cases cs with
  | nil => simp [split]
  | cons c rest =>
    unfold split
    split
    · simp
    · split <;> simp

theorem join_split (sep : Char) (cs : List Char) : join [sep] (split sep cs) = cs := by
  induction cs with
  | nil => rfl
  | cons c rest ih =>
    unfold split
    split
    · next h => exact absurd h (split_ne_nil sep rest)
    · next piece pieces h =>
      rw [h] at ih
      split
      · next hc => simp [join, hc, ih]
      · cases pieces with
        | nil => simpa [join] using ih
        | cons q qs => simpa [join] using ih

theorem keepWords_isWord {cs : List Char} {c : Char} (h : c ∈ keepWords cs) : isWord c = true :=
  (List.mem_filter.1 h).2

end ApiGraph.Text
