import ApiGraph.Json.Writer
import Mathlib.Tactic.SplitIfs

/-! The texts of numbers. Integers are written with digits and a sign only; a double is written
with a point, a power of ten or a word, so that no text stands for an integer and a double. -/

namespace ApiGraph

namespace Json

/-- A character of a number that is no word. -/
def isNumeric (c : Char) : Bool := c.isDigit || c == '.' || c == 'e' || c == '+' || c == '-'

theorem isDigit_toDigits {n : Nat} {c : Char} (h : c ∈ Nat.toDigits 10 n) : c.isDigit = true :=
  Nat.isDigit_of_mem_toDigits (by decide) (by decide) h

theorem isDigit_intText {n : Int} {c : Char} (h : c ∈ intText n) : c.isDigit = true ∨ c = '-' := by
  unfold intText at h
  split at h
  · rcases List.mem_cons.1 h with rfl | h
    · exact Or.inr rfl
    · exact Or.inl (isDigit_toDigits h)
  · exact Or.inl (isDigit_toDigits h)

theorem intText_ne_nil (n : Int) : intText n ≠ [] := by
  unfold intText
  split
  · exact List.cons_ne_nil _ _
  · exact Nat.toDigits_ne_nil

theorem toDigits_injective : Function.Injective (Nat.toDigits 10) := by
  intro m n h
  rw [← Nat.ofDigitChars_ten_toDigits (n := m), h, Nat.ofDigitChars_ten_toDigits]

theorem intText_injective : Function.Injective intText := by
  intro m n h
  have sign {k : Nat} {ds : List Char} : Nat.toDigits 10 k ≠ '-' :: ds := by
    intro hd
    have hm : '-' ∈ Nat.toDigits 10 k := hd ▸ List.mem_cons_self
    exact absurd (isDigit_toDigits hm) (by decide)
  unfold intText at h
  split at h <;> split at h
  · have := toDigits_injective (List.cons.inj h).2
    omega
  · exact absurd h.symm sign
  · exact absurd h sign
  · have := toDigits_injective h
    omega

end Json

namespace Double

open Json (isNumeric isDigit_toDigits)

theorem isNumeric_of_isDigit {c : Char} (h : c.isDigit = true) : isNumeric c = true := by
  simp [isNumeric, h]

theorem isNumeric_toDigits {n : Nat} : ∀ x ∈ Nat.toDigits 10 n, isNumeric x = true :=
  fun _ hx => isNumeric_of_isDigit (isDigit_toDigits hx)

theorem isNumeric_replicate {n : Nat} : ∀ x ∈ List.replicate n '0', isNumeric x = true := by
  intro x hx
  rw [(List.mem_replicate.1 hx).2]
  rfl

theorem isNumeric_layOut (layout : Layout) (c : Nat) (p : Int) :
    ∀ x ∈ layOut layout c p, isNumeric x = true := by
  have point : isNumeric '.' = true := by decide
  have take (n : Nat) : ∀ x ∈ (Nat.toDigits 10 c).take n, isNumeric x = true :=
    fun x hx => isNumeric_toDigits x (List.mem_of_mem_take hx)
  have drop (n : Nat) : ∀ x ∈ (Nat.toDigits 10 c).drop n, isNumeric x = true :=
    fun x hx => isNumeric_toDigits x (List.mem_of_mem_drop hx)
  unfold layOut
  dsimp only
  split
  · split
    · simp only [List.forall_mem_append, List.forall_mem_cons]
      exact ⟨⟨by decide, point, isNumeric_replicate⟩, isNumeric_toDigits⟩
    split
    · simp only [List.forall_mem_append, List.forall_mem_cons]
      exact ⟨⟨isNumeric_toDigits, isNumeric_replicate⟩, point, by decide, by simp⟩
    · simp only [List.forall_mem_append, List.forall_mem_cons]
      exact ⟨take _, point, drop _⟩
  · simp only [List.forall_mem_append, List.forall_mem_cons]
    refine ⟨⟨⟨take 1, fun x hx => ?_⟩, by decide, by split <;> decide, isNumeric_replicate⟩,
      isNumeric_toDigits⟩
    split at hx
    · cases hx
    · rcases List.mem_cons.1 hx with rfl | hx
      · exact point
      · exact drop 1 x hx

/-- A double that is written with digits has a point or a power of ten. -/
theorem mark_layOut (layout : Layout) (c : Nat) (p : Int) :
    '.' ∈ layOut layout c p ∨ 'e' ∈ layOut layout c p := by
  unfold layOut
  dsimp only
  split_ifs <;> simp

theorem isNumeric_finiteText (negative : Bool) (m : Nat) (e : Int) :
    ∀ x ∈ finiteText .plain negative m e, isNumeric x = true := by
  unfold finiteText
  dsimp only
  have digits : ∀ x ∈ (if m = 0 then ['0', '.', '0'] else layOut .plain
      (dropZeros 20 (shortest m e).1 (shortest m e).2).1
      (dropZeros 20 (shortest m e).1 (shortest m e).2).2), isNumeric x = true := by
    split
    · simp [isNumeric]
    · exact isNumeric_layOut _ _ _
  split
  · exact List.forall_mem_cons.2 ⟨by decide, digits⟩
  · exact digits

theorem mark_finiteText (negative : Bool) (m : Nat) (e : Int) :
    '.' ∈ finiteText .plain negative m e ∨ 'e' ∈ finiteText .plain negative m e := by
  unfold finiteText
  dsimp only
  have digits : '.' ∈ (if m = 0 then ['0', '.', '0'] else layOut .plain
        (dropZeros 20 (shortest m e).1 (shortest m e).2).1
        (dropZeros 20 (shortest m e).1 (shortest m e).2).2) ∨
      'e' ∈ (if m = 0 then ['0', '.', '0'] else layOut .plain
        (dropZeros 20 (shortest m e).1 (shortest m e).2).1
        (dropZeros 20 (shortest m e).1 (shortest m e).2).2) := by
    split
    · decide
    · exact mark_layOut _ _ _
  split
  · exact digits.imp (List.mem_cons_of_mem _) (List.mem_cons_of_mem _)
  · exact digits

end Double

namespace Json

/-- A double is written as a word, or with a point or a power of ten. -/
theorem floatText_cases (x : Double) :
    floatText x ∈ ["NaN".toList, "Infinity".toList, "-Infinity".toList] ∨
      ((∀ c ∈ floatText x, isNumeric c = true) ∧ ('.' ∈ floatText x ∨ 'e' ∈ floatText x)) := by
  cases x with
  | finite a m e => exact Or.inr ⟨Double.isNumeric_finiteText a m e, Double.mark_finiteText a m e⟩
  | infinite a => cases a <;> exact Or.inl (by decide)
  | nan => exact Or.inl (by decide)

theorem floatText_ne_intText (x : Double) (n : Int) : floatText x ≠ intText n := by
  intro h
  obtain hw | ⟨-, hm⟩ := floatText_cases x
  · have hi : ∀ t ∈ ["NaN".toList, "Infinity".toList, "-Infinity".toList],
        t.all (fun c => c.isDigit || c == '-') = false := by decide
    have ha : (intText n).all (fun c => c.isDigit || c == '-') = true := by
      rw [List.all_eq_true]
      intro c hc
      simpa using isDigit_intText hc
    rw [← h, hi _ hw] at ha
    cases ha
  · rw [h] at hm
    obtain hm | hm := hm <;> exact absurd (isDigit_intText hm) (by decide)

end Json

end ApiGraph
