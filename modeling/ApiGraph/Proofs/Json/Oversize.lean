import ApiGraph.Json.Reader
import ApiGraph.Number.Integer
import Mathlib.Data.List.Infix

/-! Numbers that are too long to be read. Each step of the reader leaves an end of the text that it
began with, and when it refuses a number for its length, the digits of the number stand in that
text. So a text with no more digits in a row than a number may have is not refused for it. -/

namespace ApiGraph.Json

variable {cs ds : List Char}

/-- Whether there are more digits in a row than a number may have. -/
def HasLongRun (cs : List Char) : Prop :=
  ∃ digits, digits <:+: cs ∧ Integer.maxDigits < digits.length ∧ ∀ c ∈ digits, c.isDigit = true

theorem HasLongRun.of_suffix (h : HasLongRun ds) (hs : ds <:+ cs) : HasLongRun cs := by
  obtain ⟨digits, inside, long, all⟩ := h
  exact ⟨digits, inside.trans hs.isInfix, long, all⟩

namespace Reader

variable {α β : Type}

/-- A step leaves an end of the text, or fails; if it fails because a number is too long, the text
has that many digits. -/
def Within (cs : List Char) : Step (α × List Char) → Prop
  | .ok (_, rest) => rest <:+ cs
  | .error (flaw, _) => flaw = .hugeInteger → HasLongRun cs

theorem Within.mono {x : Step (α × List Char)} (h : Within ds x) (hs : ds <:+ cs) :
    Within cs x := by
  cases x with
  | ok a => exact List.IsSuffix.trans h hs
  | error e => exact fun huge => (h huge).of_suffix hs

theorem Within.bind {x : Step (α × List Char)} {f : α × List Char → Step (β × List Char)}
    (h : Within cs x) (hf : ∀ a rest, rest <:+ cs → Within cs (f (a, rest))) :
    Within cs (x >>= f) := by
  cases x with
  | ok a => exact hf a.1 a.2 h
  | error e => exact h

theorem Within.error {flaw : Flaw} {left : List Char} (other : flaw ≠ .hugeInteger) :
    Within cs (.error (flaw, left) : Step (α × List Char)) := fun huge => absurd huge other

theorem skip_suffix (cs : List Char) : skip cs <:+ cs := List.dropWhile_suffix _

theorem suffix_of_skip {c : Char} (h : skip cs = c :: ds) : ds <:+ cs :=
  (List.suffix_cons c ds).trans (h ▸ skip_suffix cs)

theorem within_readUnits (opening : List Char) (acc : List Nat) (cs : List Char) :
    Within cs (readUnits opening acc cs) := by
  fun_induction readUnits opening acc cs with
  | case1 => exact .error nofun
  | case2 acc rest => exact List.suffix_cons _ _
  | case3 => exact .error nofun
  | case4 acc a b c d e rest n h ih => exact ih.mono ⟨['\\', 'u', a, b, c, d], rfl⟩
  | case5 => exact .error nofun
  | case6 acc c rest _ _ c' h ih => exact ih.mono ⟨['\\', c], rfl⟩
  | case7 => exact .error nofun
  | case8 => exact .error nofun
  | case9 => exact .error nofun
  | case10 acc c rest _ _ _ _ _ h ih => exact ih.mono (List.suffix_cons c rest)

theorem within_readString (opening cs : List Char) : Within cs (readString opening cs) :=
  (within_readUnits opening [] cs).bind fun _ _ hr => hr

theorem readFraction_suffix (cs : List Char) : (readFraction cs).2 <:+ cs := by
  fun_cases readFraction cs with
  | case1 c rest => exact (List.dropWhile_suffix _).trans (List.suffix_cons _ _)
  | case2 c rest => exact List.suffix_refl _
  | case3 => exact List.suffix_refl _

theorem readExponent_suffix (cs : List Char) : (readExponent cs).2 <:+ cs := by
  fun_cases readExponent cs with
  | case1 => exact List.suffix_refl _
  | case2 e rest h negative ds signed =>
    have unsigned : ds <:+ rest := by
      split at signed
      · cases signed
        exact List.suffix_cons _ _
      · cases signed
        exact List.suffix_cons _ _
      · cases signed
        exact List.suffix_refl _
    exact ((List.dropWhile_suffix _).trans unsigned).trans (List.suffix_cons e rest)
  | case3 => exact List.suffix_refl _
  | case4 => exact List.suffix_refl _

/-- The digits of a number stand at the front of the text. -/
theorem within_readNumber (negative : Bool) (left cs : List Char) :
    Within cs (readNumber negative left cs) := by
  unfold readNumber
  dsimp only
  generalize hw : (if cs.head? = some '0' then ['0'] else cs.takeWhile Char.isDigit) = whole
  have rest : (readExponent (readFraction (cs.drop whole.length)).2).2 <:+ cs :=
    ((readExponent_suffix _).trans (readFraction_suffix _)).trans (List.drop_suffix _ _)
  split
  · exact .error nofun
  · split
    · split
      · next long =>
        intro _
        split at hw
        · rw [← hw] at long
          simp at long
        · refine ⟨whole, hw ▸ (List.takeWhile_prefix _).isInfix, long, fun c hc => ?_⟩
          rw [← hw] at hc
          exact List.all_eq_true.1 List.all_takeWhile c hc
      · exact rest
    · exact rest

theorem within_readScalar (cs : List Char) : Within cs (readScalar cs) := by
  unfold readScalar
  split
  · exact List.drop_suffix _ _
  · split
    · exact (within_readNumber true _ _).mono (List.suffix_cons _ _)
    · exact within_readNumber false _ _

/-- By induction on the fuel, for values, items and entries at once. -/
theorem within_read (fuel : Nat) :
    (∀ cs, Within cs (readValue fuel cs)) ∧ (∀ acc cs, Within cs (readItems fuel acc cs)) ∧
      ∀ acc cs, Within cs (readMembers fuel acc cs) := by
  induction fuel with
  | zero => exact ⟨fun _ => .error nofun, fun _ _ => .error nofun, fun _ _ => .error nofun⟩
  | succ fuel ih =>
    obtain ⟨value, items, members⟩ := ih
    refine ⟨fun cs => ?_, fun acc cs => ?_, fun acc cs => ?_⟩
    · unfold readValue
      split
      · next rest =>
        exact Within.mono (.bind (within_readString _ rest) fun s rest' hr => hr)
          (List.suffix_cons _ _)
      · next rest =>
        refine Within.mono ?_ (List.suffix_cons '[' rest)
        split
        · next h => exact suffix_of_skip h
        · exact (items _ _).mono (skip_suffix rest)
      · next rest =>
        refine Within.mono ?_ (List.suffix_cons _ rest)
        split
        · next h => exact suffix_of_skip h
        · exact (members _ _).mono (skip_suffix rest)
      · exact within_readScalar cs
    · unfold readItems
      refine (value cs).bind fun v rest hr => ?_
      refine Within.mono ?_ hr
      dsimp only
      split
      · next h => exact suffix_of_skip h
      · next h => exact (items _ _).mono ((skip_suffix _).trans (suffix_of_skip h))
      · exact .error nofun
    · unfold readMembers
      split
      · next rest =>
        refine Within.mono ?_ (List.suffix_cons '"' rest)
        refine (within_readString _ rest).bind fun k rest' hr => Within.mono ?_ hr
        dsimp only
        split
        · next after colon =>
          refine Within.mono ?_ ((skip_suffix _).trans (suffix_of_skip colon))
          refine (value _).bind fun v rest'' hv => Within.mono ?_ hv
          dsimp only
          split
          · next h => exact suffix_of_skip h
          · next h => exact (members _ _).mono ((skip_suffix _).trans (suffix_of_skip h))
          · exact .error nofun
        · exact .error nofun
      · exact .error nofun

theorem hasLongRun_of_readWhole {left : List Char}
    (h : readWhole cs = .error (.hugeInteger, left)) : HasLongRun cs := by
  unfold readWhole at h
  split at h
  · cases h
  · have value := (within_read (2 * cs.length + 2)).1 (skip cs)
    generalize readValue (2 * cs.length + 2) (skip cs) = x at h value
    cases x with
    | error e =>
      cases h
      exact (value rfl).of_suffix (skip_suffix cs)
    | ok a =>
      dsimp only [bind, Except.bind] at h
      split at h <;> cases h

end Reader

/-- Whether a text is refused because a number in it has too many digits. -/
def Oversized (text : String) : Prop :=
  ∃ fault, parse text = .error fault ∧ fault.flaw = .hugeInteger

theorem Oversized.hasLongRun {text : String} (h : Oversized text) : HasLongRun text.toList := by
  obtain ⟨fault, refused, huge⟩ := h
  unfold parse at refused
  dsimp only at refused
  split at refused
  · cases refused
  · next flaw left whole =>
    obtain rfl := Except.error.inj refused
    obtain rfl : flaw = .hugeInteger := huge
    exact Reader.hasLongRun_of_readWhole whole

/-- A number with too many digits is refused. -/
theorem oversized_ones {n : Nat} (long : Integer.maxDigits < n) :
    Oversized (String.ofList (List.replicate n '1')) := by
  obtain ⟨k, rfl⟩ : ∃ k, n = k + 1 := ⟨n - 1, by omega⟩
  have long' : 4300 < k + 1 := long
  have number (left : List Char) : Reader.readNumber false left (List.replicate (k + 1) '1') =
      .error (.hugeInteger, left) := by
    simp [Reader.readNumber, Reader.readFraction, Reader.readExponent, long', List.replicate_succ]
  have value (fuel : Nat) : Reader.readValue (fuel + 1) (List.replicate (k + 1) '1') =
      .error (.hugeInteger, List.replicate (k + 1) '1') := by
    rw [List.replicate_succ] at number ⊢
    simp [Reader.readValue, Reader.readScalar, Reader.words, number]
  have whole : Reader.readWhole (List.replicate (k + 1) '1') =
      .error (.hugeInteger, List.replicate (k + 1) '1') := by
    rw [List.replicate_succ] at value ⊢
    simp [Reader.readWhole, Reader.skip, Reader.isSpace, value, bind, Except.bind]
  refine ⟨.at (List.replicate (k + 1) '1') .hugeInteger 0, ?_, rfl⟩
  unfold parse
  simp [whole]

end ApiGraph.Json
