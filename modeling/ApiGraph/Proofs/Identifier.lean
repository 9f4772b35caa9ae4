import ApiGraph.Naming
import ApiGraph.Proofs.FreeVariant

/-! Names as identifiers. The rules for names keep word characters only, which is never empty where
a verb or a place is among the parts; only the identifier of an operation may have nothing to keep.
A variant of a name and the name of a member continue the name by word characters. -/

namespace ApiGraph

open Text

/-- A text that is not empty and has ASCII letters, digits and underscores only. -/
def IsIdentifier (s : String) : Prop := s ≠ "" ∧ ∀ c ∈ s.toList, isWord c = true

instance (s : String) : Decidable (IsIdentifier s) :=
  decidable_of_iff (s ≠ "" ∧ s.toList.all isWord = true) (and_congr_right' List.all_eq_true)

/-- The second text is the first one, continued by ASCII letters, digits and underscores. -/
def Appends (a b : String) : Prop :=
  ∃ cs, b.toList = a.toList ++ cs ∧ ∀ c ∈ cs, isWord c = true

variable {a b c : String}

namespace Appends

theorem refl (a : String) : Appends a a := ⟨[], by simp, by simp⟩

theorem trans (h₁ : Appends a b) (h₂ : Appends b c) : Appends a c := by
  obtain ⟨cs, hb, hcs⟩ := h₁
  obtain ⟨ds, hc, hds⟩ := h₂
  exact ⟨cs ++ ds, by rw [hc, hb, List.append_assoc],
    fun x hx => (List.mem_append.1 hx).elim (hcs x) (hds x)⟩

theorem isPrefix (h : Appends a b) : a.toList <+: b.toList := by
  obtain ⟨cs, hb, -⟩ := h
  exact ⟨cs, hb.symm⟩

theorem eq_empty (h : Appends a b) (empty : b = "") : a = "" := by
  obtain ⟨cs, hb, -⟩ := h
  rw [empty] at hb
  exact String.toList_eq_nil_iff.1 (List.append_eq_nil_iff.1 hb.symm).1

theorem isWord (h : Appends a b) (word : ∀ c ∈ a.toList, isWord c = true) :
    ∀ c ∈ b.toList, Text.isWord c = true := by
  obtain ⟨cs, hb, hcs⟩ := h
  rw [hb]
  exact fun c hc => (List.mem_append.1 hc).elim (word c) (hcs c)

theorem append (h : ∀ c ∈ b.toList, Text.isWord c = true) : Appends a (a ++ b) :=
  ⟨b.toList, by simp, h⟩

end Appends

theorem IsIdentifier.appends (h : IsIdentifier a) (hb : Appends a b) : IsIdentifier b :=
  ⟨fun empty => h.1 (hb.eq_empty empty), hb.isWord h.2⟩

theorem isIdentifier_ofList {cs : List Char} (nonempty : cs ≠ []) (word : ∀ c ∈ cs, isWord c = true) :
    IsIdentifier (String.ofList cs) :=
  ⟨fun h => nonempty (String.ofList_eq_empty_iff.1 h), by simpa using word⟩

/-- An identifier does not begin like a reference. -/
theorem IsIdentifier.head_ne (h : IsIdentifier a) {mark : Char} (hm : isWord mark = false) :
    a.toList.head? ≠ some mark := by
  intro head
  have word := h.2 mark (List.mem_of_mem_head? head)
  rw [hm] at word
  cases word

theorem isWord_of_mem_toDigits {n : Nat} {c : Char} (h : c ∈ Nat.toDigits 10 n) : isWord c = true := by
  simp [isWord, Char.isAlphanum, Nat.isDigit_of_mem_toDigits (by decide) (by decide) h]

theorem appends_numbered (name : String) (k : Nat) : Appends name (Registry.numbered name k) :=
  ⟨_, Registry.toList_numbered name k, fun _ => isWord_of_mem_toDigits⟩

/-- A free variant of a name continues the name. -/
theorem appends_freeVariant (taken : List String) (name : String) :
    Appends name (Registry.freeVariant taken name) := by
  by_cases h : name ∈ taken
  · obtain ⟨k, -, hk, -⟩ := Registry.freeVariant_spec h
    rw [hk]
    exact appends_numbered name k
  · rw [Registry.freeVariant_of_not_mem h]
    exact .refl name

theorem appends_toString (name : String) (i : Nat) : Appends name (name ++ toString i) :=
  .append fun _ hc => isWord_of_mem_toDigits (by simpa [Nat.toString_eq_ofList_toDigits] using hc)

namespace Naming

theorem isLower_iff {c : Char} : c.isLower = true ↔ 'a'.val ≤ c.val ∧ c.val ≤ 'z'.val :=
  Bool.and_eq_true_iff.trans (and_congr decide_eq_true_iff decide_eq_true_iff)

theorem isUpper_iff {c : Char} : c.isUpper = true ↔ 'A'.val ≤ c.val ∧ c.val ≤ 'Z'.val :=
  decide_eq_true_iff

/-- The capital of a small letter is 32 places before it. -/
theorem isUpper_toUpper {c : Char} (small : c.isLower = true) : c.toUpper.isUpper = true := by
  obtain ⟨least, most⟩ := isLower_iff.1 small
  have capital : c.toUpper.val = c.val + ('A'.val - 'a'.val) := by
    unfold Char.toUpper
    rw [dif_pos ⟨least, most⟩]
  simp only [UInt32.le_iff_toNat_le] at least most
  rw [show 'a'.val.toNat = 97 from rfl] at least
  rw [show 'z'.val.toNat = 122 from rfl] at most
  rw [isUpper_iff, capital, UInt32.le_iff_toNat_le, UInt32.le_iff_toNat_le, UInt32.toNat_add,
    show ('A'.val - 'a'.val).toNat = 4294967264 from rfl, show 'A'.val.toNat = 65 from rfl,
    show 'Z'.val.toNat = 90 from rfl]
  omega

theorem isWord_toUpper {c : Char} (h : isWord c = true) : isWord c.toUpper = true := by
  by_cases small : c.isLower = true
  · have alphabetic : c.toUpper.isAlpha = true := Bool.or_eq_true_iff.2 (.inl (isUpper_toUpper small))
    simp [isWord, Char.isAlphanum, alphabetic]
  · have same : c.toUpper = c := by
      unfold Char.toUpper
      rw [dif_neg fun letter => small (isLower_iff.2 letter)]
    rwa [same]

theorem keepWords_eq_nil {cs : List Char} : keepWords cs = [] ↔ ∀ c ∈ cs, isWord c = false := by
  simp [keepWords, List.filter_eq_nil_iff]

/-- Words are run together without the loss of a word: a separator is dropped only in front of a
word character. -/
theorem keepWords_humps_eq_nil (cs : List Char) : keepWords (humps cs) = [] ↔ keepWords cs = [] := by
  fun_induction humps cs with
  | case1 => rfl
  | case2 => rfl
  | case3 c d rest h =>
    have hd : isWord d = true := (Bool.and_eq_true_iff.1 h).2
    simp [keepWords_eq_nil, hd, isWord_toUpper hd]
  | case4 c d rest h ih =>
    rw [keepWords_eq_nil, keepWords_eq_nil] at ih ⊢
    rw [List.forall_mem_cons, List.forall_mem_cons (a := c), ih]

theorem keepWords_pascalCase_eq_nil (cs : List Char) :
    keepWords (pascalCase cs) = [] ↔ keepWords cs = [] := by
  cases cs with
  | nil => rfl
  | cons c cs =>
    have blank : isWord ' ' = false := by decide
    change keepWords (humps (' ' :: c :: cs)) = [] ↔ _
    rw [keepWords_humps_eq_nil, keepWords, List.filter_cons_of_neg (by simp [blank])]
    rfl

theorem keepWords_spaceOut (inRun : Bool) (cs : List Char) :
    keepWords (spaceOut inRun cs) = keepWords cs := by
  induction cs generalizing inRun with
  | nil => rfl
  | cons c cs ih =>
    unfold spaceOut
    by_cases hc : isWord c = true
    · have kept (ds : List Char) : keepWords (c :: ds) = c :: keepWords ds :=
        List.filter_cons_of_pos hc
      simp only [hc, Bool.true_or, if_true, kept, ih]
    · have blank : isWord ' ' = false := by decide
      have dropped : keepWords (c :: cs) = keepWords cs := List.filter_cons_of_neg hc
      rw [dropped]
      split
      · rw [← ih false]
        exact List.filter_cons_of_neg hc
      · split
        · exact ih true
        · rw [← ih true]
          exact List.filter_cons_of_neg (by simp [blank])

theorem mem_join_of_mem {sep : List Char} {piece : List Char} {pieces : List (List Char)} {c : Char}
    (h : c ∈ piece) : c ∈ join sep (piece :: pieces) := by
  cases pieces with
  | nil => exact h
  | cons next rest => simp [join, h]

/-- An operation has a name unless its identifier has characters, but none to keep. -/
theorem method_eq_nil {operationId verb path : List Char} (hv : ∃ c ∈ verb, isWord c = true) :
    method operationId verb path = [] ↔ operationId ≠ [] ∧ keepWords operationId = [] := by
  unfold method
  simp only [keepWords_pascalCase_eq_nil, keepWords_spaceOut]
  cases operationId with
  | nil =>
    obtain ⟨c, hc, word⟩ := hv
    simp only [List.isEmpty_nil, if_true, ne_eq, not_true_eq_false, false_and, iff_false,
      keepWords_eq_nil]
    intro none
    have kept := none c (mem_join_of_mem hc)
    rw [word] at kept
    cases kept
  | cons d ds => simp

/-- The name of a member continues the name of its parent. -/
theorem appends_nested (parent : String) (member : List Char) :
    Appends parent (String.ofList (nested parent.toList member)) :=
  ⟨_, by rw [String.toList_ofList]; rfl, fun _ => keepWords_isWord⟩

end Naming

end ApiGraph
