import ApiGraph.Proofs.Json.Alike
import ApiGraph.Proofs.Json.Number
import ApiGraph.Proofs.Json.Quoted
import Mathlib.Data.List.Forall2

/-! A text on one line with sorted keys determines the value up to the order of keys. Texts are a prefix
code: when what follows a text starts with a stop, the text and the value can be told from the whole. -/

namespace ApiGraph.Json

/-- A character that ends a value. -/
def isStop (c : Char) : Bool := c == ',' || c == ']' || c == '\x7d'

/-- What may follow a value: nothing, or something that starts with a stop. -/
def Ends (rest : List Char) : Prop := ∀ c ∈ rest.head?, isStop c = true

/-- The first character of a value that is no word. -/
def opening? : Json → Option Char
  | .str _ => some '"'
  | .arr _ => some '['
  | .obj _ => some '\x7b'
  | _ => none

/-- A character of a word. -/
def isPlain (c : Char) : Bool := c.isAlphanum || c == '.' || c == '+' || c == '-'

theorem not_isStop_of_isPlain {c : Char} (h : isPlain c = true) : isStop c = false := by
  rw [Bool.eq_false_iff]
  intro hs
  simp only [isStop, Bool.or_eq_true, beq_iff_eq] at hs
  obtain (rfl | rfl) | rfl := hs <;> exact absurd h (by decide)

theorem isPlain_of_isNumeric {c : Char} (h : isNumeric c = true) : isPlain c = true := by
  simp only [isNumeric, Bool.or_eq_true, beq_iff_eq] at h
  obtain (((h | rfl) | rfl) | rfl) | rfl := h
  · simp [isPlain, Char.isAlphanum, h]
  all_goals decide

theorem not_isPlain_opening {v : Json} {c : Char} (h : v.opening? = some c) :
    isPlain c = false ∧ isStop c = false := by
  cases v <;> cases h <;> decide

variable {style : Style} {level : Nat} {v w : Json} {rest rest' : List Char}

theorem isPlain_intText {n : Int} : ∀ c ∈ intText n, isPlain c = true := by
  intro c hc
  obtain h | rfl := isDigit_intText hc
  · simp [isPlain, Char.isAlphanum, h]
  · decide

theorem isPlain_floatText {x : Double} : ∀ c ∈ floatText x, isPlain c = true := by
  intro c hc
  obtain h | ⟨h, -⟩ := floatText_cases x
  · have words : ∀ t ∈ ["NaN".toList, "Infinity".toList, "-Infinity".toList],
        t.all isPlain = true := by decide
    exact List.all_eq_true.1 (words _ h) c hc
  · exact isPlain_of_isNumeric (h c hc)

theorem floatText_ne_nil (x : Double) : floatText x ≠ [] := by
  intro hx
  obtain h | ⟨-, h⟩ := floatText_cases x
  · rw [hx] at h
    exact absurd h (by decide)
  · rw [hx] at h
    simp at h

/-- A word is written without stops and openings. -/
theorem write_word (h : v.opening? = none) :
    write style level v ≠ [] ∧ ∀ c ∈ write style level v, isPlain c = true := by
  have word {t : List Char} (hne : t ≠ []) (ht : t.all isPlain = true) :
      t ≠ [] ∧ ∀ c ∈ t, isPlain c = true := ⟨hne, List.all_eq_true.1 ht⟩
  cases v with
  | null =>
    rw [write]
    exact word (by decide) (by decide)
  | bool b =>
    rw [write]
    cases b <;> exact word (by decide) (by decide)
  | int n => exact ⟨intText_ne_nil n, isPlain_intText⟩
  | float x => exact ⟨floatText_ne_nil x, isPlain_floatText⟩
  | str s => cases h
  | arr vs => cases h
  | obj es => cases h

theorem enclose_head {opening closing : Char} {texts : List (List Char)} :
    ∃ tail, style.enclose level opening closing texts = opening :: tail := by
  cases texts with
  | nil => exact ⟨_, rfl⟩
  | cons t ts => exact ⟨_, rfl⟩

theorem write_opening {c : Char} (h : v.opening? = some c) :
    ∃ tail, write style level v = c :: tail := by
  cases v with
  | null => cases h
  | bool b => cases h
  | int n => cases h
  | float x => cases h
  | str s =>
    cases h
    exact ⟨_, by rw [write, quote, List.cons_append]⟩
  | arr vs =>
    cases h
    rw [write]
    exact enclose_head
  | obj es =>
    cases h
    rw [write]
    exact enclose_head

/-- The first character of a text is no stop, and tells how the value opens. -/
theorem write_head (style : Style) (level : Nat) (v : Json) : ∃ c tail,
    write style level v = c :: tail ∧ isStop c = false ∧
      v.opening? = if isPlain c then none else some c := by
  cases h : v.opening? with
  | none =>
    have hw : write style level v ≠ [] ∧ ∀ c ∈ write style level v, isPlain c = true := write_word h
    obtain ⟨hne, hp⟩ := hw
    obtain ⟨c, tail, hc⟩ := List.exists_cons_of_ne_nil hne
    have hpc : isPlain c = true := hp c (hc ▸ List.mem_cons_self)
    exact ⟨c, tail, hc, not_isStop_of_isPlain hpc, by rw [if_pos hpc]⟩
  | some c =>
    have ho : ∃ tail, write style level v = c :: tail := write_opening h
    obtain ⟨tail, hc⟩ := ho
    obtain ⟨hp, hs⟩ := not_isPlain_opening h
    exact ⟨c, tail, hc, hs, by rw [hp, if_neg Bool.false_ne_true]⟩

theorem opening_eq (h : write style level v ++ rest = write style level w ++ rest') :
    v.opening? = w.opening? := by
  obtain ⟨c, tail, hv, -, ho⟩ := write_head style level v
  obtain ⟨c', tail', hw, -, ho'⟩ := write_head style level w
  rw [hv, hw] at h
  obtain rfl : c = c' := (List.cons.inj h).1
  rw [ho, ho']

/-- Plain characters are told from what follows them. -/
theorem plain_append_inj {t t' : List Char} (ht : ∀ c ∈ t, isPlain c = true)
    (ht' : ∀ c ∈ t', isPlain c = true) (hr : Ends rest) (hr' : Ends rest')
    (h : t ++ rest = t' ++ rest') : t = t' ∧ rest = rest' := by
  have stop {c : Char} {t rest : List Char} (hr : Ends rest) (hc : isPlain c = true) :
      rest ≠ c :: t := by
    rintro rfl
    have := hr c rfl
    rw [not_isStop_of_isPlain hc] at this
    cases this
  induction t generalizing t' with
  | nil =>
    cases t' with
    | nil => exact ⟨rfl, h⟩
    | cons c t' => exact absurd h (stop hr (ht' c List.mem_cons_self))
  | cons c t ih =>
    cases t' with
    | nil => exact absurd h.symm (stop hr' (ht c List.mem_cons_self))
    | cons c' t' =>
      obtain ⟨rfl, htail⟩ := List.cons.inj h
      obtain ⟨rfl, hrest⟩ := ih (fun x hx => ht x (List.mem_cons_of_mem _ hx))
        (fun x hx => ht' x (List.mem_cons_of_mem _ hx)) htail
      exact ⟨rfl, hrest⟩

/-- The words that are no numbers. -/
def constants : List (List Char) := ["null".toList, "true".toList, "false".toList]

theorem intText_notMem_constants (n : Int) : intText n ∉ constants := by
  intro h
  have letters : ∀ t ∈ constants, t.all (fun c => c.isDigit || c == '-') = false := by decide
  have := letters _ h
  rw [List.all_eq_true.2 fun c hc => by simpa using isDigit_intText hc] at this
  cases this

theorem floatText_notMem_constants (x : Double) : floatText x ∉ constants := by
  intro h
  obtain hw | ⟨hn, -⟩ := floatText_cases x
  · have apart : ∀ t ∈ constants, t ∉ ["NaN".toList, "Infinity".toList, "-Infinity".toList] := by
      decide
    exact apart _ h hw
  · have letters : ∀ t ∈ constants, t.all isNumeric = false := by decide
    have := letters _ h
    rw [List.all_eq_true.2 hn] at this
    cases this

/-- Words with the same text are alike. -/
theorem alike_of_word (hv : v.opening? = none) (hw : w.opening? = none)
    (h : write style level v = write style level w) : Alike v w := by
  have number {t t' : List Char} (ht : t ∉ constants) (ht' : t' ∈ constants) : t ≠ t' :=
    fun he => ht (he ▸ ht')
  have hn : "null".toList ∈ constants := by decide
  have hb (b : Bool) : (if b then "true" else "false").toList ∈ constants := by
    cases b <;> decide
  cases v <;> simp only [opening?, reduceCtorEq] at hv <;> cases w <;>
    simp only [opening?, reduceCtorEq] at hw <;>
    simp only [write] at h
  case null.null => exact .null
  case null.bool b => cases b <;> exact absurd h (by decide)
  case null.int n => exact absurd h.symm (number (intText_notMem_constants n) hn)
  case null.float x => exact absurd h.symm (number (floatText_notMem_constants x) hn)
  case bool.null b => cases b <;> exact absurd h (by decide)
  case bool.bool b b' =>
    cases b <;> cases b' <;> first | exact .bool _ | exact absurd h (by decide)
  case bool.int b n => exact absurd h.symm (number (intText_notMem_constants n) (hb b))
  case bool.float b x => exact absurd h.symm (number (floatText_notMem_constants x) (hb b))
  case int.null n => exact absurd h (number (intText_notMem_constants n) hn)
  case int.bool n b => exact absurd h (number (intText_notMem_constants n) (hb b))
  case int.int n m =>
    obtain rfl : n = m := intText_injective h
    exact .int n
  case int.float n x => exact absurd h.symm (floatText_ne_intText x n)
  case float.null x => exact absurd h (number (floatText_notMem_constants x) hn)
  case float.bool x b => exact absurd h (number (floatText_notMem_constants x) (hb b))
  case float.int x n => exact absurd h (floatText_ne_intText x n)
  case float.float x y => exact .float h

/-- The style writes a value on one line with its keys in order, and what stands between two items
begins with a comma. -/
structure Style.IsFlat (style : Style) : Prop where
  sorted : style.sorted = true
  indent : style.indent = none
  comma : ∃ gap, style.comma = ',' :: gap

theorem Style.isFlat_canonical : Style.canonical.IsFlat := ⟨rfl, rfl, [], rfl⟩

theorem Style.isFlat_spacedCanonical : Style.spacedCanonical.IsFlat := ⟨rfl, rfl, [' '], rfl⟩

section Enclosed

variable {α : Type} {f : α → List Char} {R : α → α → Prop} {opening closing : Char} {xs ys : List α}
  (flat : style.IsFlat)

/-- Written items after the first one, up to the end. -/
def following (style : Style) (closing : Char) (texts : List (List Char)) (rest : List Char) :
    List Char :=
  texts.flatMap (fun t => style.comma ++ t) ++ closing :: rest

theorem following_cons (t : List Char) (texts : List (List Char)) :
    following style closing (t :: texts) rest =
      style.comma ++ (t ++ following style closing texts rest) := by
  simp [following]

include flat in
theorem ends_following (hc : isStop closing = true) (texts : List (List Char)) :
    Ends (following style closing texts rest) := by
  intro c h
  cases texts with
  | nil =>
    obtain rfl : closing = c := Option.some.inj h
    exact hc
  | cons t ts =>
    obtain ⟨gap, comma⟩ := flat.comma
    rw [following_cons, comma] at h
    obtain rfl : ',' = c := Option.some.inj h
    rfl

theorem enclose_nil : style.enclose level opening closing [] ++ rest =
    opening :: following style closing [] rest := rfl

include flat in
theorem enclose_cons (t : List Char) (texts : List (List Char)) :
    style.enclose level opening closing (t :: texts) ++ rest =
      opening :: (t ++ following style closing texts rest) := by
  simp [Style.enclose, Style.break, flat.indent, following]

include flat in
/-- What follows the last item is not what stands between two items. -/
theorem following_nil_ne (hne : closing ≠ ',') (t : List Char) (texts : List (List Char)) :
    following style closing [] rest ≠ following style closing (t :: texts) rest' := by
  obtain ⟨gap, comma⟩ := flat.comma
  rw [following_cons, comma]
  exact fun h => hne (List.cons.inj h).1

include flat in
/-- If single items are told apart whatever follows them, so are the items after the first one. -/
theorem following_inj (hc : isStop closing = true) (hne : closing ≠ ',')
    (item : ∀ x ∈ xs, ∀ y ∈ ys, ∀ r r', Ends r → Ends r' → f x ++ r = f y ++ r' → R x y ∧ r = r')
    (h : following style closing (xs.map f) rest = following style closing (ys.map f) rest') :
    List.Forall₂ R xs ys ∧ rest = rest' := by
  induction xs generalizing ys with
  | nil =>
    cases ys with
    | nil => exact ⟨.nil, (List.cons.inj h).2⟩
    | cons y ys => exact absurd h (following_nil_ne flat hne _ _)
  | cons x xs ih =>
    cases ys with
    | nil => exact absurd h.symm (following_nil_ne flat hne _ _)
    | cons y ys =>
      rw [List.map_cons, List.map_cons, following_cons, following_cons] at h
      obtain ⟨hxy, hrest⟩ := item x List.mem_cons_self y List.mem_cons_self _ _
        (ends_following flat hc _) (ends_following flat hc _) (List.append_cancel_left h)
      obtain ⟨hall, hr⟩ := ih (fun a ha b hb => item a (List.mem_cons_of_mem _ ha) b
        (List.mem_cons_of_mem _ hb)) hrest
      exact ⟨.cons hxy hall, hr⟩

include flat in
theorem enclose_append_inj (hc : isStop closing = true) (hne : closing ≠ ',')
    (head : ∀ x, ∃ c tail, f x = c :: tail ∧ isStop c = false)
    (item : ∀ x ∈ xs, ∀ y ∈ ys, ∀ r r', Ends r → Ends r' → f x ++ r = f y ++ r' → R x y ∧ r = r')
    (h : style.enclose level opening closing (xs.map f) ++ rest =
      style.enclose level opening closing (ys.map f) ++ rest') :
    List.Forall₂ R xs ys ∧ rest = rest' := by
  have mixed {x : α} {tail rest : List Char} : f x ++ tail ≠ closing :: rest := by
    intro he
    obtain ⟨c, t, hx, hs⟩ := head x
    rw [hx, List.cons_append] at he
    rw [(List.cons.inj he).1, hc] at hs
    cases hs
  cases xs with
  | nil =>
    cases ys with
    | nil => exact ⟨.nil, (List.cons.inj (List.cons.inj h).2).2⟩
    | cons y ys =>
      rw [List.map_cons, List.map_nil, enclose_nil, enclose_cons flat] at h
      exact absurd (List.cons.inj h).2.symm mixed
  | cons x xs =>
    cases ys with
    | nil =>
      rw [List.map_cons, List.map_nil, enclose_nil, enclose_cons flat] at h
      exact absurd (List.cons.inj h).2 mixed
    | cons y ys =>
      rw [List.map_cons, List.map_cons, enclose_cons flat, enclose_cons flat] at h
      obtain ⟨hxy, hrest⟩ := item x List.mem_cons_self y List.mem_cons_self _ _
        (ends_following flat hc _) (ends_following flat hc _) (List.cons.inj h).2
      obtain ⟨hall, hr⟩ := following_inj flat hc hne (fun a ha b hb => item a
        (List.mem_cons_of_mem _ ha) b (List.mem_cons_of_mem _ hb)) hrest
      exact ⟨.cons hxy hall, hr⟩

end Enclosed

/-- The texts that start with the text of the value start with the text of a value alike. -/
def Told (style : Style) (v : Json) : Prop := ∀ level w rest rest', Ends rest → Ends rest' →
  write style level v ++ rest = write style level w ++ rest' → Alike v w ∧ rest = rest'

theorem Told.alike (h : Told style v) (he : write style level v = write style level w) :
    Alike v w :=
  (h level w [] [] (fun _ hc => by cases hc) (fun _ hc => by cases hc) (by rw [he])).1

theorem told_word (hv : v.opening? = none) : Told style v := by
  intro level w rest rest' hr hr' h
  have hw : w.opening? = none := opening_eq h ▸ hv
  obtain ⟨ht, hrest⟩ := plain_append_inj (write_word hv).2 (write_word hw).2 hr hr' h
  exact ⟨alike_of_word hv hw ht, hrest⟩

theorem told_str (s : String) : Told style (.str s) := by
  intro level w rest rest' hr hr' h
  have ho := opening_eq h
  cases w with
  | str t =>
    simp only [write] at h
    obtain ⟨rfl, hrest⟩ := quote_append_inj h
    exact ⟨.str s, hrest⟩
  | _ => simp [opening?] at ho

theorem told_arr (flat : style.IsFlat) {vs : List Json} (ih : ∀ v ∈ vs, Told style v) :
    Told style (.arr vs) := by
  intro level w rest rest' hr hr' h
  have ho := opening_eq h
  cases w with
  | arr ws =>
    rw [write_arr, write_arr] at h
    have head (v : Json) : ∃ c tail,
        write style (level + 1) v = c :: tail ∧ isStop c = false := by
      obtain ⟨c, tail, hc, hs, -⟩ := write_head style (level + 1) v
      exact ⟨c, tail, hc, hs⟩
    obtain ⟨hall, hrest⟩ := enclose_append_inj flat rfl (by decide) head
      (fun v hv w _ r r' => ih v hv (level + 1) w r r') h
    refine ⟨.arr hall.length_eq fun i v w hv hw => ?_, hrest⟩
    obtain ⟨hi, rfl⟩ := List.getElem?_eq_some_iff.1 hv
    obtain ⟨hj, rfl⟩ := List.getElem?_eq_some_iff.1 hw
    exact hall.get hi hj
  | _ => simp [opening?] at ho

theorem told_obj (flat : style.IsFlat) {es : List (String × Json)}
    (ih : ∀ p ∈ es, Told style p.2) : Told style (.obj es) := by
  intro level w rest rest' hr hr' h
  have ho := opening_eq h
  cases w with
  | obj ds =>
    rw [write_obj flat.sorted, write_obj flat.sorted] at h
    -- the entries agree in their keys and texts, so that sorting hides nothing but their order
    obtain ⟨hall, hrest⟩ := enclose_append_inj flat (R := Eq) rfl (by decide)
      (fun p => ⟨'"', _, by rw [quote, List.cons_append, List.cons_append, List.cons_append], rfl⟩)
      (by
        intro p hp q hq r r' hr hr' he
        obtain ⟨⟨k, v⟩, hv, rfl⟩ := List.mem_map.1 ((List.mergeSort_perm _ _).mem_iff.1 hp)
        obtain ⟨⟨l, w⟩, hw, rfl⟩ := List.mem_map.1 ((List.mergeSort_perm _ _).mem_iff.1 hq)
        simp only [List.append_assoc] at he
        obtain ⟨rfl, htail⟩ := quote_append_inj he
        obtain ⟨halike, hrr⟩ := ih _ hv (level + 1) w r r' hr hr' (List.append_cancel_left htail)
        exact ⟨by rw [halike.write_eq flat.sorted], hrr⟩) h
    have hsorted := sortEntries_eq_iff.1 (List.forall₂_eq_eq_eq ▸ hall)
    simp only [under_map] at hsorted
    refine ⟨.obj (fun k => by simpa using congrArg List.length (hsorted k))
      fun k i v w hv hw => ?_, hrest⟩
    have hm : (k, v) ∈ es := mem_of_mem_under (List.mem_of_getElem? hv)
    exact (ih _ hm).alike (getElem?_of_map_eq (hsorted k) hv hw)
  | _ => simp [opening?] at ho

theorem told (flat : style.IsFlat) (v : Json) : Told style v := by
  induction v using Json.induction with
  | null => exact told_word rfl
  | bool b => exact told_word rfl
  | int n => exact told_word rfl
  | float x => exact told_word rfl
  | str s => exact told_str s
  | arr vs ih => exact told_arr flat ih
  | obj es ih => exact told_obj flat ih

/-- Two values have the same text on one line with sorted keys exactly if they are the same up to the
order of keys. -/
theorem render_eq_iff (flat : style.IsFlat) : v.render style = w.render style ↔ Alike v w := by
  constructor
  · intro h
    exact (told flat v).alike (String.ofList_injective h)
  · intro h
    rw [render, render, h.write_eq flat.sorted]

/-- Two values have the same canonical text exactly if they are the same up to the order of keys. -/
theorem canonical_eq_iff : v.canonical = w.canonical ↔ Alike v w := render_eq_iff Style.isFlat_canonical

theorem Alike.symm (h : Alike v w) : Alike w v := canonical_eq_iff.1 (canonical_eq_iff.2 h).symm

end ApiGraph.Json
