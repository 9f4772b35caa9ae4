import ApiGraph.Proofs.Json.Canonical

/-! Values without the doubles that have no JSON form, and values whose entries are the same one by
one, or the same but for the place of one of them. -/

namespace ApiGraph.Json

/-- Whether the value is itself a double without a JSON form. -/
def isUnbounded : Json → Bool
  | .float x => !x.isFinite
  | _ => false

variable {u v w : Json} {vs ws : List Json} {ds es : List (String × Json)} {k : String}

theorem finiteItems_eq_map (vs : List Json) : finiteItems vs = vs.map finite := by
  induction vs with
  | nil => rfl
  | cons v vs ih => rw [finiteItems, ih, List.map_cons]

theorem finiteEntries_eq_map (es : List (String × Json)) :
    finiteEntries es = es.map fun p => (p.1, p.2.finite) := by
  induction es with
  | nil => rfl
  | cons p es ih => rw [finiteEntries, ih, List.map_cons]

/-- What is finite stays as it is. -/
@[simp] theorem finite_finite (v : Json) : v.finite.finite = v.finite := by
  induction v using Json.induction with
  | null | bool | int | str => rfl
  | float x => cases hx : x.isFinite <;> simp [finite, hx]
  | arr vs ih =>
    rw [finite, finite, finiteItems_eq_map, finiteItems_eq_map, List.map_map]
    exact congrArg _ (List.map_congr_left ih)
  | obj es ih =>
    rw [finite, finite, finiteEntries_eq_map, finiteEntries_eq_map, List.map_map]
    refine congrArg _ (List.map_congr_left fun p hp => ?_)
    exact Prod.ext rfl (ih p hp)

@[simp] theorem finiteEntries_finiteEntries (es : List (String × Json)) :
    finiteEntries (finiteEntries es) = finiteEntries es := by
  simp [finiteEntries_eq_map]

theorem nonNull_eq_none (h : v.nonNull = none) : v = .null := by
  cases v <;> first | rfl | cases h

/-- A value that is not null becomes null only if it is a double without a JSON form. -/
theorem nonNull_finite (h : v.isUnbounded = false) : v.finite.nonNull = v.nonNull.map finite := by
  cases v with
  | float x =>
    have hx : x.isFinite = true := by simpa [isUnbounded] using h
    simp [finite, hx, nonNull]
  | _ => rfl

theorem Alike.refl (v : Json) : Alike v v := canonical_eq_iff.1 rfl

theorem Alike.trans (h₁ : Alike u v) (h₂ : Alike v w) : Alike u w :=
  canonical_eq_iff.1 ((canonical_eq_iff.2 h₁).trans (canonical_eq_iff.2 h₂))

theorem Alike.of_eq (h : v = w) : Alike v w := h ▸ .refl v

/-- Lists whose items are the same one by one are the same. -/
theorem Alike.map_arr {α : Type} {f g : α → Json} {as : List α} (h : ∀ a ∈ as, Alike (f a) (g a)) :
    Alike (.arr (as.map f)) (.arr (as.map g)) := by
  refine .arr (by simp) fun i v w hv hw => ?_
  rw [List.getElem?_map, Option.map_eq_some_iff] at hv hw
  obtain ⟨a, ha, rfl⟩ := hv
  obtain ⟨b, hb, rfl⟩ := hw
  obtain rfl : a = b := Option.some.inj (ha.symm.trans hb)
  exact h a (List.mem_of_getElem? ha)

/-- The entries are the same one by one. -/
def Aligned (ds es : List (String × Json)) : Prop :=
  List.Forall₂ (fun p q => p.1 = q.1 ∧ Alike p.2 q.2) ds es

namespace Aligned

theorem refl (es : List (String × Json)) : Aligned es es :=
  List.forall₂_same.2 fun p _ => ⟨rfl, .refl p.2⟩

theorem append {ds' es' : List (String × Json)} (h : Aligned ds es) (h' : Aligned ds' es') :
    Aligned (ds ++ ds') (es ++ es') := List.rel_append h h'

theorem entry (h : Alike v w) : Aligned [(k, v)] [(k, w)] := .cons ⟨rfl, h⟩ .nil

theorem map {α : Type} {f g : α → String × Json} {as : List α}
    (h : ∀ a ∈ as, (f a).1 = (g a).1 ∧ Alike (f a).2 (g a).2) : Aligned (as.map f) (as.map g) := by
  unfold Aligned
  rw [List.forall₂_map_left_iff, List.forall₂_map_right_iff, List.forall₂_same]
  exact h

theorem under (h : Aligned ds es) (k : String) : List.Forall₂ Alike (under k ds) (under k es) := by
  induction h with
  | nil => exact .nil
  | @cons p q ds es hpq _ ih =>
    obtain ⟨key, v⟩ := p
    obtain ⟨_, w⟩ := q
    obtain ⟨rfl, hvw⟩ := hpq
    by_cases hk : (key == k) = true
    · simp only [Json.under, List.filter_cons, hk, if_true, List.map_cons]
      exact .cons hvw ih
    · simp only [Json.under, List.filter_cons, hk]
      exact ih

/-- Objects whose entries are the same one by one are the same. -/
theorem obj (h : Aligned ds es) : Alike (.obj ds) (.obj es) := by
  refine .obj (fun k => (h.under k).length_eq) fun k i v w hv hw => ?_
  obtain ⟨hi, rfl⟩ := List.getElem?_eq_some_iff.1 hv
  obtain ⟨hj, rfl⟩ := List.getElem?_eq_some_iff.1 hw
  exact (h.under k).get hi hj

end Aligned

/-- An entry may stand anywhere among entries with other keys. -/
theorem Alike.moved {before after : List (String × Json)} (h : k ∉ after.map Prod.fst) :
    Alike (.obj (before ++ (after ++ [(k, v)]))) (.obj (before ++ ([(k, v)] ++ after))) := by
  have same (j : String) : under j (before ++ (after ++ [(k, v)])) =
      under j (before ++ ([(k, v)] ++ after)) := by
    simp only [under, List.filter_append, List.map_append]
    by_cases hj : (k == j) = true
    · have hn : after.filter (fun p => p.1 == j) = [] := by
        rw [List.filter_eq_nil_iff]
        intro p hp he
        exact h (List.mem_map.2 ⟨p, hp, (eq_of_beq he).trans (eq_of_beq hj).symm⟩)
      rw [hn, List.map_nil, List.nil_append, List.append_nil]
    · have hn : [(k, v)].filter (fun p => p.1 == j) = [] := by simpa using hj
      rw [hn, List.map_nil, List.append_nil, List.nil_append]
  refine .obj (fun j => by rw [same]) fun j i v w hv hw => ?_
  rw [same] at hv
  exact .of_eq (Option.some.inj (hv.symm.trans hw))

end ApiGraph.Json
