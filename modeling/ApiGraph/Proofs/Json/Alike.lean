import ApiGraph.Proofs.Json.Order

/-! Values that are the same up to the order of keys. They have the same text in every style that
sorts keys. -/

namespace ApiGraph.Json

/-- The values are the same but for the order of the keys of objects; doubles are the same if they
are printed alike. -/
inductive Alike : Json → Json → Prop
  | null : Alike .null .null
  | bool (b : Bool) : Alike (.bool b) (.bool b)
  | int (n : Int) : Alike (.int n) (.int n)
  | float {x y : Double} (printed : floatText x = floatText y) : Alike (.float x) (.float y)
  | str (s : String) : Alike (.str s) (.str s)
  | arr {vs ws : List Json} (length : vs.length = ws.length)
    (items : ∀ (i : Nat) (v w : Json), vs[i]? = some v → ws[i]? = some w → Alike v w) :
    Alike (.arr vs) (.arr ws)
  | obj {ds es : List (String × Json)} (length : ∀ k, (under k ds).length = (under k es).length)
    (values : ∀ (k : String) (i : Nat) (v w : Json), (under k ds)[i]? = some v →
      (under k es)[i]? = some w → Alike v w) :
    Alike (.obj ds) (.obj es)

/-- What holds of a value when it holds of its parts holds of every value. -/
@[elab_as_elim]
theorem induction {motive : Json → Prop} (null : motive .null) (bool : ∀ b, motive (.bool b))
    (int : ∀ n, motive (.int n)) (float : ∀ x, motive (.float x)) (str : ∀ s, motive (.str s))
    (arr : ∀ vs, (∀ v ∈ vs, motive v) → motive (.arr vs))
    (obj : ∀ es, (∀ p ∈ es, motive p.2) → motive (.obj es)) : ∀ v, motive v
  | .null => null
  | .bool b => bool b
  | .int n => int n
  | .float x => float x
  | .str s => str s
  | .arr vs => arr vs fun v hv =>
    have : sizeOf v < sizeOf vs := List.sizeOf_lt_of_mem hv
    induction null bool int float str arr obj v
  | .obj es => obj es fun p hp =>
    have : sizeOf p < sizeOf es := List.sizeOf_lt_of_mem hp
    have : sizeOf p.2 < sizeOf p := by
      rw [show sizeOf p = 1 + sizeOf p.1 + sizeOf p.2 from rfl]
      omega
    induction null bool int float str arr obj p.2
termination_by v => sizeOf v
decreasing_by
  all_goals
    simp only [Json.arr.sizeOf_spec, Json.obj.sizeOf_spec]
    omega

variable {style : Style} {level : Nat} {v w : Json} {vs ws : List Json}
  {ds es : List (String × Json)}

theorem writeItems_eq_map (style : Style) (level : Nat) (vs : List Json) :
    writeItems style level vs = vs.map (write style level) := by
  induction vs with
  | nil => rfl
  | cons v vs ih => rw [writeItems, ih, List.map_cons]

theorem writeEntries_eq_map (style : Style) (level : Nat) (es : List (String × Json)) :
    writeEntries style level es = es.map fun p => (p.1, write style level p.2) := by
  induction es with
  | nil => rfl
  | cons p es ih => rw [writeEntries, ih, List.map_cons]

theorem write_arr : write style level (.arr vs) =
    style.enclose level '[' ']' (vs.map (write style (level + 1))) := by
  rw [write, writeItems_eq_map]

theorem write_obj (hs : style.sorted = true) : write style level (.obj es) =
    style.enclose level '\x7b' '\x7d'
      ((sortEntries (es.map fun p => (p.1, write style (level + 1) p.2))).map fun p =>
        quote style.ascii p.1 ++ style.colon ++ p.2) := by
  rw [write, writeEntries_eq_map]
  simp only [hs, if_true]

/-- Parts that are pairwise alike make the same list of texts. -/
theorem map_eq_of_getElem? {α : Type} {f : Json → α} (length : vs.length = ws.length)
    (items : ∀ (i : Nat) (v w : Json), vs[i]? = some v → ws[i]? = some w → f v = f w) :
    vs.map f = ws.map f := by
  refine List.ext_getElem (by simpa using length) fun i h₁ h₂ => ?_
  rw [List.length_map] at h₁ h₂
  rw [List.getElem_map, List.getElem_map]
  exact items i _ _ (List.getElem?_eq_getElem h₁) (List.getElem?_eq_getElem h₂)

theorem getElem?_of_map_eq {α : Type} {f : Json → α} (h : vs.map f = ws.map f) {i : Nat}
    (hv : vs[i]? = some v) (hw : ws[i]? = some w) : f v = f w := by
  have := congrArg (·[i]?) h
  simpa [hv, hw] using this

/-- Values that are alike have the same text when keys are sorted. -/
theorem Alike.write_eq (hs : style.sorted = true) (h : Alike v w) (level : Nat) :
    write style level v = write style level w := by
  induction h generalizing level with
  | null => rfl
  | bool b => rfl
  | int n => rfl
  | float printed => simpa only [write] using printed
  | str s => rfl
  | arr length items ih =>
    rw [write_arr, write_arr, map_eq_of_getElem? length fun i v w hv hw => ih i v w hv hw _]
  | obj length values ih =>
    rw [write_obj hs, write_obj hs, sortEntries_eq_iff.2 fun k => ?_]
    rw [under_map, under_map]
    exact map_eq_of_getElem? (length k) fun i v w hv hw => ih k i v w hv hw _

theorem lookup_eq_head?_under (k : String) (es : List (String × Json)) :
    es.lookup k = (under k es).head? := by
  induction es with
  | nil => rfl
  | cons p es ih =>
    obtain ⟨key, v⟩ := p
    by_cases hk : key = k
    · subst hk
      simp [under]
    · have hne : (k == key) = false := by simpa using Ne.symm hk
      rw [List.lookup_cons, hne, ih]
      simp [under, hk]

/-- Values that are alike have the same keys, and what stands under them is alike. -/
theorem Alike.get? (h : Alike v w) (k : String) :
    (v.get? k = none ∧ w.get? k = none) ∨
      ∃ a b, v.get? k = some a ∧ w.get? k = some b ∧ Alike a b := by
  cases h with
  | @obj ds es length values =>
    simp only [Json.get?, lookup_eq_head?_under]
    have hl := length k
    cases hd : under k ds with
    | nil =>
      rw [hd] at hl
      rw [List.length_eq_zero_iff.1 hl.symm]
      exact Or.inl ⟨rfl, rfl⟩
    | cons a as =>
      cases he : under k es with
      | nil => simp [hd, he] at hl
      | cons b bs => exact Or.inr ⟨a, b, rfl, rfl, values k 0 a b (by rw [hd]; rfl) (by rw [he]; rfl)⟩
  | _ => exact Or.inl ⟨rfl, rfl⟩

theorem Alike.get (h : Alike v w) (k : String) : Alike (v.get k) (w.get k) := by
  unfold Json.get
  obtain ⟨hv, hw⟩ | ⟨a, b, hv, hw, hab⟩ := h.get? k
  · rw [hv, hw]
    exact .null
  · rw [hv, hw]
    exact hab

theorem Alike.has_eq (h : Alike v w) (k : String) : v.has k = w.has k := by
  unfold Json.has
  obtain ⟨hv, hw⟩ | ⟨a, b, hv, hw, -⟩ := h.get? k
  · rw [hv, hw]
  · rw [hv, hw]
    rfl

theorem Alike.isObject_eq (h : Alike v w) : v.isObject = w.isObject := by
  cases h <;> rfl

theorem Alike.isNull_eq (h : Alike v w) : v.isNull = w.isNull := by
  cases h <;> rfl

theorem Alike.text?_eq (h : Alike v w) : v.text? = w.text? := by
  cases h <;> rfl

end ApiGraph.Json
