import ApiGraph.Json.Reader
import ApiGraph.Json.Writer
import Mathlib.Tactic.SplitIfs

/-! Strings between quotes are read back, whatever follows them. A character beyond the basic plane
is written as two code units, which are joined again. -/

namespace ApiGraph.Json

open Reader

/-- The code units that a character is written as: two halves of a pair when it has to be escaped
and lies beyond the basic plane. -/
def units (ascii : Bool) (c : Char) : List Nat :=
  if ascii ∧ 0x10000 ≤ c.toNat then
    [0xD800 + (c.toNat - 0x10000) / 0x400, 0xDC00 + (c.toNat - 0x10000) % 0x400]
  else [c.toNat]

theorem hexValue_digitChar {k : Nat} (h : k < 16) : hexValue? (Nat.digitChar k) = some k := by
  have all : ∀ k : Fin 16, hexValue? (Nat.digitChar k) = some k.val := by decide
  exact all ⟨k, h⟩

theorem hex4_spec {n : Nat} (h : n < 0x10000) :
    ∃ a b c d, hex4 n = [a, b, c, d] ∧ hex4? a b c d = some n := by
  refine ⟨_, _, _, _, rfl, ?_⟩
  have digit (k : Nat) : hexValue? (Nat.digitChar (k % 16)) = some (k % 16) :=
    hexValue_digitChar (Nat.mod_lt _ (by decide))
  simp only [hex4?, digit, Option.bind_eq_bind, Option.bind_some, Option.pure_def,
    Option.some.injEq]
  omega

/-- A character is no half of a pair. -/
theorem toNat_not_surrogate (c : Char) : ¬ (0xD800 ≤ c.toNat ∧ c.toNat < 0xE000) := by
  have := c.valid
  simp only [UInt32.isValidChar, Nat.isValidChar] at this
  simp only [Char.toNat]
  omega

theorem toNat_lt (c : Char) : c.toNat < 0x110000 := by
  have := c.valid
  simp only [UInt32.isValidChar, Nat.isValidChar] at this
  simp only [Char.toNat]
  omega

variable {opening rest : List Char} {acc : List Nat}

theorem readUnits_plain {c : Char} (hq : c ≠ '"') (hb : c ≠ '\\') (hc : ¬ c.toNat < 32) :
    readUnits opening acc (c :: rest) = readUnits opening (c.toNat :: acc) rest := by
  rw [readUnits.eq_def]
  split
  · next heq => cases heq
  · next heq => exact absurd (List.cons.inj heq).1 hq
  · next heq => exact absurd (List.cons.inj heq).1 hb
  · next heq => exact absurd (List.cons.inj heq).1 hb
  · next heq => exact absurd (List.cons.inj heq).1 hb
  · next heq => exact absurd (List.cons.inj heq).1 hb
  · next heq =>
    obtain ⟨rfl, rfl⟩ := List.cons.inj heq
    rw [if_neg hc]

theorem readUnits_escape {opening rest : List Char} {acc : List Nat} {n : Nat} {e : Char}
    (h : n < 0x10000) : readUnits opening acc ('\\' :: 'u' :: hex4 n ++ e :: rest) =
      readUnits opening (n :: acc) (e :: rest) := by
  obtain ⟨a, b, c, d, h4, hn⟩ := hex4_spec h
  rw [h4]
  simp [readUnits, hn]

theorem readUnits_unicodeEscape {n : Nat} {e : Char} (h : n < 0x110000) :
    readUnits opening acc (unicodeEscape n ++ e :: rest) = readUnits opening
      ((if 0x10000 ≤ n then
        [0xD800 + (n - 0x10000) / 0x400, 0xDC00 + (n - 0x10000) % 0x400] else [n]).reverse ++ acc)
      (e :: rest) := by
  unfold unicodeEscape
  by_cases hn : n < 0x10000
  · rw [if_pos hn, if_neg (by omega)]
    exact readUnits_escape hn
  · rw [if_neg hn, if_pos (by omega), List.append_assoc]
    change readUnits opening acc
      ('\\' :: 'u' :: hex4 _ ++ '\\' :: ('u' :: hex4 _ ++ e :: rest)) = _
    rw [readUnits_escape (by omega)]
    change readUnits opening _ ('\\' :: 'u' :: hex4 _ ++ e :: rest) = _
    rw [readUnits_escape (by omega)]
    rfl

/-- A character is read as its code units. -/
theorem readUnits_escapeChar (ascii : Bool) (c e : Char) :
    readUnits opening acc (escapeChar ascii c ++ e :: rest) =
      readUnits opening ((units ascii c).reverse ++ acc) (e :: rest) := by
  have low (h : c.toNat < 0x10000) : units ascii c = [c.toNat] := by
    rw [units, if_neg (by omega)]
  have short {x : Char} (hx : x ≠ 'u') (hs : shortEscape? x = some c) (hc : c.toNat < 0x10000) :
      readUnits opening acc (['\\', x] ++ e :: rest) =
        readUnits opening ((units ascii c).reverse ++ acc) (e :: rest) := by
    rw [low hc]
    simp [readUnits, hx, hs]
  unfold escapeChar
  split_ifs with h₁ h₂ h₃ h₄ h₅ h₆ h₇ h₈ h₉
  · subst h₁
    exact short (by decide) rfl (by decide)
  · subst h₂
    exact short (by decide) rfl (by decide)
  · subst h₃
    exact short (by decide) rfl (by decide)
  · subst h₄
    exact short (by decide) rfl (by decide)
  · subst h₅
    exact short (by decide) rfl (by decide)
  · exact short (by decide) (congrArg some (by rw [← h₆, Char.ofNat_toNat])) (by omega)
  · exact short (by decide) (congrArg some (by rw [← h₇, Char.ofNat_toNat])) (by omega)
  · rw [readUnits_unicodeEscape (toNat_lt c), low (by omega), if_neg (by omega)]
  · rw [readUnits_unicodeEscape (toNat_lt c)]
    have ha : ascii = true := by simpa using (Bool.and_eq_true _ _ ▸ h₉ : _ ∧ _).1
    simp [units, ha]
  · have hu : units ascii c = [c.toNat] := by
      rw [units, if_neg]
      rintro ⟨ha, hn⟩
      exact h₉ (by simp [ha]; omega)
    rw [hu]
    exact readUnits_plain h₁ h₂ h₈

theorem joinUnits_cons {n : Nat} {ns : List Nat} (h : ¬ (0xD800 ≤ n ∧ n < 0xE000)) :
    joinUnits (n :: ns) = Char.ofNat n :: joinUnits ns := by
  cases ns with
  | nil => simp only [joinUnits, if_neg h]
  | cons m ns => rw [joinUnits, if_neg (by omega), if_neg h]

/-- The code units of a character are joined to the character. -/
theorem joinUnits_units (ascii : Bool) (c : Char) (ns : List Nat) :
    joinUnits (units ascii c ++ ns) = c :: joinUnits ns := by
  have hlt := toNat_lt c
  unfold units
  split
  · next h =>
    have hc : 0x10000 + (0xD800 + (c.toNat - 0x10000) / 0x400 - 0xD800) * 0x400 +
        (0xDC00 + (c.toNat - 0x10000) % 0x400 - 0xDC00) = c.toNat := by omega
    change joinUnits (_ :: _ :: ns) = _
    rw [joinUnits, if_pos (by omega), hc, Char.ofNat_toNat]
  · change joinUnits (c.toNat :: ns) = _
    rw [joinUnits_cons (toNat_not_surrogate c), Char.ofNat_toNat]

theorem joinUnits_flatMap (ascii : Bool) (cs : List Char) :
    joinUnits (cs.flatMap (units ascii)) = cs := by
  induction cs with
  | nil => rfl
  | cons c cs ih => rw [List.flatMap_cons, joinUnits_units, ih]

theorem readUnits_flatMap (ascii : Bool) (cs : List Char) :
    readUnits opening acc (cs.flatMap (escapeChar ascii) ++ '"' :: rest) =
      .ok (acc.reverse ++ cs.flatMap (units ascii), rest) := by
  induction cs generalizing acc with
  | nil => simp [readUnits]
  | cons c cs ih =>
    obtain ⟨e, tail, he⟩ : ∃ e tail, cs.flatMap (escapeChar ascii) ++ '"' :: rest = e :: tail := by
      cases h : cs.flatMap (escapeChar ascii) with
      | nil => exact ⟨_, _, rfl⟩
      | cons e tail => exact ⟨_, _, rfl⟩
    rw [List.flatMap_cons, List.append_assoc, he, readUnits_escapeChar, ← he, ih]
    simp

/-- A string between quotes is read back, and the text after it is left. -/
theorem readString_quote (ascii : Bool) (s : String) :
    readString opening (s.toList.flatMap (escapeChar ascii) ++ '"' :: rest) = .ok (s, rest) := by
  simp only [readString, readUnits_flatMap, bind, Except.bind, pure, Except.pure, List.reverse_nil,
    List.nil_append, joinUnits_flatMap, String.ofList_toList]

/-- Strings between quotes are told apart, whatever follows them. -/
theorem quote_append_inj {ascii : Bool} {s t : String} {rest' : List Char}
    (h : quote ascii s ++ rest = quote ascii t ++ rest') : s = t ∧ rest = rest' := by
  have read (s : String) (rest : List Char) :
      readString [] (quote ascii s ++ rest).tail = .ok (s, rest) := by
    have hq : (quote ascii s ++ rest).tail = s.toList.flatMap (escapeChar ascii) ++ '"' :: rest := by
      simp [quote]
    rw [hq, readString_quote]
  have hr := read s rest
  rw [h, read t rest'] at hr
  have hp := Except.ok.inj hr
  exact ⟨(Prod.mk.inj hp).1.symm, (Prod.mk.inj hp).2.symm⟩

end ApiGraph.Json
