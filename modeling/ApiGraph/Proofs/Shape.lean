import ApiGraph.Json.Shape

/-! Values that fit: what a reader finds in a value whose parts it reads. -/

namespace ApiGraph.Shape

variable {α β γ : Type} {read : Json → Checked β} {v : Json} {name : String} {names : List String}
  {absent : Checked β} {b default : β}

theorem Checked.each_cons {α β : Type} {read : α → Checked β} {step : Step} {a : α} {b : β}
    {xs : List (Step × α)} {bs : List β} (ha : read a = .fits b) (hxs : each read xs = .fits bs) :
    each read ((step, a) :: xs) = .fits (b :: bs) := by
  rw [each, ha, hxs]
  rfl

/-- A list fits when its items do. -/
theorem list_fits {f : α → Json} {g : α → β} {as : List α}
    (h : ∀ a ∈ as, read (f a) = .fits (g a)) : list read (.arr (as.map f)) = .fits (as.map g) := by
  have counted (n : Nat) : Checked.each read (((as.map f).zipIdx n).map fun p => (.item p.2, p.1)) =
      .fits (as.map g) := by
    induction as generalizing n with
    | nil => rfl
    | cons a as ih =>
      exact Checked.each_cons (h a List.mem_cons_self)
        (ih (fun b hb => h b (List.mem_cons_of_mem _ hb)) _)
  exact counted 0

/-- An object fits when its values do. -/
theorem dict_fits {f : α → Json} {g : α → β} {es : List (String × α)}
    (h : ∀ p ∈ es, read (f p.2) = .fits (g p.2)) :
    dict read (.obj (es.map fun p => (p.1, f p.2))) = .fits (es.map fun p => (p.1, g p.2)) := by
  unfold dict
  induction es with
  | nil => rfl
  | cons p es ih =>
    refine Checked.each_cons ?_ (ih fun q hq => h q (List.mem_cons_of_mem _ hq))
    dsimp only
    rw [h p List.mem_cons_self]
    rfl

theorem list_fits_same {f : β → Json} (h : ∀ b, read (f b) = .fits b) (bs : List β) :
    list read (.arr (bs.map f)) = .fits bs := by
  rw [list_fits (g := id) fun b _ => h b, List.map_id]

theorem dict_fits_same {f : β → Json} (h : ∀ b, read (f b) = .fits b) (es : List (String × β)) :
    dict read (.obj (es.map fun p => (p.1, f p.2))) = .fits es := by
  rw [dict_fits (g := id) fun p _ => h p.2]
  exact congrArg _ (List.map_id es)

theorem field_fits {x : Json} (h : v.get? name = some x) (hr : read x = .fits b) :
    field (name :: names) absent read v = .fits b := by
  rw [field, under?, h]
  simp only [hr]
  rfl

theorem under?_eq_none (h : ∀ n ∈ names, v.get? n = none) : under? v names = none := by
  induction names with
  | nil => rfl
  | cons n names ih =>
    rw [under?, h n List.mem_cons_self]
    exact ih fun m hm => h m (List.mem_cons_of_mem _ hm)

theorem withDefault_fits (h : ∀ n ∈ names, v.get? n = none) :
    withDefault names default read v = .fits default := by
  rw [withDefault, field, under?_eq_none h]
  rfl

/-! A value fits as a whole only if all its parts fit. -/

namespace Checked

/-- There was no mismatch. -/
def Fits {α : Type} (c : Checked α) : Prop := ∃ a, c = .fits a

variable {α β : Type} {f : Checked (α → β)} {a : Checked α}

theorem not_fits_fails {ms : List Mismatch} : ¬ (fails ms : Checked α).Fits := by
  rintro ⟨_, h⟩
  cases h

theorem fits_map {g : α → β} : (g <$> a).Fits ↔ a.Fits := by
  cases a with
  | fits a => exact ⟨fun _ => ⟨a, rfl⟩, fun _ => ⟨g a, rfl⟩⟩
  | fails ms => exact iff_of_false not_fits_fails not_fits_fails

theorem fits_seq : (f <*> a).Fits ↔ f.Fits ∧ a.Fits := by
  cases f with
  | fits f =>
    cases a with
    | fits a => exact ⟨fun _ => ⟨⟨f, rfl⟩, ⟨a, rfl⟩⟩, fun _ => ⟨f a, rfl⟩⟩
    | fails ms => exact iff_of_false not_fits_fails fun h => not_fits_fails h.2
  | fails ms =>
    refine iff_of_false ?_ fun h => not_fits_fails h.1
    cases a <;> exact not_fits_fails

theorem fits_under {step : Step} : (a.under step).Fits ↔ a.Fits := by
  cases a with
  | fits a => exact ⟨fun _ => ⟨a, rfl⟩, fun _ => ⟨a, rfl⟩⟩
  | fails ms => exact iff_of_false not_fits_fails not_fits_fails

theorem Fits.of_each {read : α → Checked β} {xs : List (Step × α)} (h : (each read xs).Fits) :
    ∀ x ∈ xs, (read x.2).Fits := by
  induction xs with
  | nil => simp
  | cons x xs ih =>
    obtain ⟨step, a⟩ := x
    obtain ⟨first, rest⟩ := fits_seq.1 (show (List.cons <$> under step (read a) <*> each read xs).Fits
      from h)
    intro y hy
    rcases List.mem_cons.1 hy with rfl | hy
    · exact fits_under.1 (fits_map.1 first)
    · exact ih rest y hy

theorem fits_each {read : α → Checked β} {xs : List (Step × α)} (h : ∀ x ∈ xs, (read x.2).Fits) :
    (each read xs).Fits := by
  induction xs with
  | nil => exact ⟨[], rfl⟩
  | cons x xs ih =>
    obtain ⟨first, rest⟩ := List.forall_mem_cons.1 h
    exact fits_seq.2 ⟨fits_map.2 (fits_under.2 first), ih rest⟩

end Checked

theorem fits_list {items : List Json} (h : ∀ v ∈ items, (read v).Fits) :
    (list read (.arr items)).Fits := by
  refine Checked.fits_each fun x hx => ?_
  obtain ⟨p, hp, rfl⟩ := List.mem_map.1 hx
  exact h p.1 (List.fst_mem_of_mem_zipIdx hp)

theorem fits_dict {entries : List (String × Json)} (h : ∀ p ∈ entries, (read p.2).Fits) :
    (dict read (.obj entries)).Fits := by
  refine Checked.fits_each fun x hx => ?_
  obtain ⟨p, hp, rfl⟩ := List.mem_map.1 hx
  exact Checked.fits_map.2 (h p hp)

theorem fits_of_field {x : Json} (h : v.get? name = some x)
    (fits : (field (name :: names) absent read v).Fits) : (read x).Fits := by
  rw [field, under?, h] at fits
  exact Checked.fits_under.1 fits

theorem fits_of_list {f : α → Json} {as : List α} (h : (list read (.arr (as.map f))).Fits) :
    ∀ a ∈ as, (read (f a)).Fits := by
  intro a ha
  have each := Checked.Fits.of_each h
  obtain ⟨i, hi, rfl⟩ := List.getElem_of_mem ha
  refine each (.item i, f as[i]) (List.mem_map.2 ⟨(f as[i], i), ?_, rfl⟩)
  exact List.mem_zipIdx_iff_getElem?.2 (by simp [hi])

end ApiGraph.Shape
