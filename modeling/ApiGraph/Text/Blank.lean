/-! White space: the characters that separate words in Unicode text, the few of them that ASCII
has, and trimming. -/

namespace ApiGraph.Text

/-- First and last code point of each run of white space, ascending. -/
def blankRanges : List (Nat × Nat) :=
  [(9, 13), (28, 32), (133, 133), (160, 160), (5760, 5760), (8192, 8202), (8232, 8233),
    (8239, 8239), (8287, 8287), (12288, 12288)]

/-- Whether the character is white space of any script. -/
def isBlank (c : Char) : Bool := blankRanges.any fun r => r.1 ≤ c.toNat && c.toNat ≤ r.2

/-- Whether the character is a space, a tab, a line break, a form feed or a vertical tab. -/
def isAsciiBlank (c : Char) : Bool := c == ' ' || (9 ≤ c.toNat && c.toNat ≤ 13)

/-- Whether the character may stand around a number: white space other than the separators of
ASCII. -/
def isMargin (c : Char) : Bool := isBlank c && !(28 ≤ c.toNat && c.toNat ≤ 31)

/-- Drops the characters that satisfy the test from both ends. -/
def trimBy (p : Char → Bool) (cs : List Char) : List Char :=
  ((cs.dropWhile p).reverse.dropWhile p).reverse

/-- Drops white space from both ends. -/
def trim (cs : List Char) : List Char := trimBy isBlank cs

theorem isBlank_of_isAsciiBlank (c : Char) (h : isAsciiBlank c = true) : isBlank c = true := by
  have h' : c = ' ' ∨ (9 ≤ c.toNat ∧ c.toNat ≤ 13) := by
    simpa [isAsciiBlank] using h
  rcases h' with rfl | ⟨h1, h2⟩
  · decide
  · simp [isBlank, blankRanges, h1, h2]

end ApiGraph.Text
