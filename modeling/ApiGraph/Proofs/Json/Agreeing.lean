import ApiGraph.Proofs.Json.Kin
import ApiGraph.Proofs.Shape

/-! Values that are the same but for the order of keys, read against a shape: both fit or neither
does, and what they are read as is the same but for the order of keys. -/

namespace ApiGraph.Shape

open Json (under)

/-- Both values fit and what they are read as is related, or neither fits. -/
inductive Checked.Agrees {α β : Type} (R : α → β → Prop) : Checked α → Checked β → Prop
  | fits {a : α} {b : β} (values : R a b) : Agrees R (.fits a) (.fits b)
  | fails {ms ns : List Mismatch} : Agrees R (.fails ms) (.fails ns)

variable {α β γ δ : Type} {R : α → β → Prop} {S : γ → δ → Prop} {walked : Bool} {v w : Json}

namespace Checked.Agrees

variable {x : Checked α} {y : Checked β}

theorem of_eq {x y : Checked α} (h : x = y) : Agrees Eq x y := by
  subst h
  cases x with
  | fits a => exact .fits rfl
  | fails ms => exact .fails

theorem map {f : α → γ} {g : β → δ} (h : Agrees R x y) (hf : ∀ a b, R a b → S (f a) (g b)) :
    Agrees S (f <$> x) (g <$> y) := by
  cases h with
  | fits values => exact .fits (hf _ _ values)
  | fails => exact .fails

theorem both {f : Checked (α → γ)} {g : Checked (β → δ)}
    (hf : Agrees (fun f g => ∀ a b, R a b → S (f a) (g b)) f g) (h : Agrees R x y) :
    Agrees S (f <*> x) (g <*> y) := by
  cases hf with
  | fits functions =>
    cases h with
    | fits values => exact .fits (functions _ _ values)
    | fails => exact .fails
  | fails =>
    cases h with
    | fits values => exact .fails
    | fails => exact .fails

theorem under (step : Step) (h : Agrees R x y) : Agrees R (x.under step) (y.under step) := by
  cases h with
  | fits values => exact .fits values
  | fails => exact .fails

/-- Lists of values that agree one by one agree. -/
theorem each {f : α → Checked γ} {g : β → Checked δ} {as : List (Step × α)} {bs : List (Step × β)}
    (h : List.Forall₂ (fun a b => Agrees S (f a.2) (g b.2)) as bs) :
    Agrees (List.Forall₂ S) (each f as) (each g bs) := by
  induction h with
  | nil => exact .fits .nil
  | @cons a b as bs hab _ ih =>
    rw [Checked.each, Checked.each]
    generalize f a.2 = x at hab
    generalize g b.2 = y at hab
    generalize Checked.each f as = xs at ih
    generalize Checked.each g bs = ys at ih
    cases hab with
    | fits value =>
      cases ih with
      | fits values => exact .fits (.cons value values)
      | fails => exact .fails
    | fails => cases ih <;> exact .fails

end Checked.Agrees

theorem text_eq (h : Json.Kin walked v w) : text v = text w := by
  cases h <;> rfl

theorem optional_text_eq (h : Json.Kin walked v w) : optional text v = optional text w := by
  cases h <;> rfl

theorem withDefault_text_eq (h : Json.Kin walked v w) (name : String) :
    withDefault [name] none (optional text) v = withDefault [name] none (optional text) w := by
  have found := h.get? name
  unfold withDefault field under? under?
  generalize v.get? name = a at found
  generalize w.get? name = b at found
  cases found with
  | none => rfl
  | some h => exact congrArg (Checked.under (.key name)) (optional_text_eq h)

section

variable {read : Json → Checked α} {read' : Json → Checked β}

/-- Lists agree if their items do. -/
theorem agrees_list (h : ∀ v w, Json.Kin false v w → (read v).Agrees R (read' w))
    (hv : Json.Kin walked v w) : (list read v).Agrees (List.Forall₂ R) (list read' w) := by
  cases hv with
  | @arr _ vs ws length items =>
    have pairs := (Json.Kin.arr length items : Json.Kin false _ _).items
    have counted (n : Nat) : List.Forall₂ (fun a b => (read a.2).Agrees R (read' b.2))
        ((vs.zipIdx n).map fun p => (Step.item p.2, p.1))
        ((ws.zipIdx n).map fun p => (Step.item p.2, p.1)) := by
      clear length items
      induction pairs generalizing n with
      | nil => exact .nil
      | cons first _ ih => exact .cons (h _ _ first) (ih (n + 1))
    exact .each (counted 0)
  | _ => exact .fails

/-- Lists whose items are read as the same are read as the same. -/
theorem list_eq (h : ∀ v w, Json.Kin false v w → read v = read w) (hv : Json.Kin walked v w) :
    list read v = list read w := by
  cases hv with
  | @arr _ vs ws length items =>
    have pairs := (Json.Kin.arr length items : Json.Kin false _ _).items
    have counted (n : Nat) :
        Checked.each read ((vs.zipIdx n).map fun p => (Step.item p.2, p.1)) =
          Checked.each read ((ws.zipIdx n).map fun p => (Step.item p.2, p.1)) := by
      clear length items
      induction pairs generalizing n with
      | nil => rfl
      | cons first _ ih =>
        rw [List.zipIdx_cons, List.zipIdx_cons, List.map_cons, List.map_cons, Checked.each,
          Checked.each, h _ _ first, ih]
    exact counted 0
  | _ => rfl

theorem each_cons_fits {read : α → Checked β} {step : Step} {a : α} {xs : List (Step × α)}
    {bs : List β} (h : Checked.each read ((step, a) :: xs) = .fits bs) :
    ∃ b cs, read a = .fits b ∧ Checked.each read xs = .fits cs ∧ bs = b :: cs := by
  rw [Checked.each] at h
  cases ha : read a with
  | fails => rw [ha] at h; cases hx : Checked.each read xs <;> rw [hx] at h <;> cases h
  | fits b =>
    rw [ha] at h
    cases hx : Checked.each read xs with
    | fails => rw [hx] at h; cases h
    | fits cs =>
      rw [hx] at h
      cases h
      exact ⟨b, cs, rfl, rfl, rfl⟩

/-- What stands under a key is read one value after the other. -/
theorem dict_under {es : List (String × Json)} {d : Dict String α}
    (h : dict read (.obj es) = .fits d) (k : String) :
    (under k es).map read = (under k d).map .fits := by
  unfold dict at h
  induction es generalizing d with
  | nil =>
    cases h
    rfl
  | cons e es ih =>
    obtain ⟨x, d, hx, hd, rfl⟩ := each_cons_fits h
    obtain ⟨a, ha, rfl⟩ : ∃ a, read e.2 = .fits a ∧ (e.1, a) = x := by
      cases ha : read e.2 with
      | fails => rw [ha] at hx; cases hx
      | fits a => rw [ha] at hx; cases hx; exact ⟨a, rfl, rfl⟩
    rw [Json.under_cons, Json.under_cons]
    split
    · rw [List.map_cons, List.map_cons, ha, ih hd]
    · exact ih hd

theorem exists_dict {es : List (String × Json)} (h : ∀ e ∈ es, ∃ a, read e.2 = .fits a) :
    ∃ d, dict read (.obj es) = .fits d := by
  unfold dict
  induction es with
  | nil => exact ⟨[], rfl⟩
  | cons e es ih =>
    obtain ⟨a, ha⟩ := h e List.mem_cons_self
    obtain ⟨d, hd⟩ := ih fun e he => h e (List.mem_cons_of_mem _ he)
    refine ⟨(e.1, a) :: d, Checked.each_cons ?_ hd⟩
    rw [ha]
    rfl

/-- Objects whose values are read as the same are read as the same under each key. -/
theorem agrees_dict (h : ∀ v w, Json.Kin false v w → read v = read w) (hv : Json.Kin walked v w) :
    (dict read v).Agrees (fun d d' => ∀ k, under k d = under k d') (dict read w) := by
  cases hv with
  | @obj _ ds es order length values literal =>
    have same (k : String) : (under k ds).map read = (under k es).map read := by
      have pairs := (Json.Kin.obj order length values literal).under k
      rw [← List.forall₂_eq_eq_eq, List.forall₂_map_left_iff, List.forall₂_map_right_iff]
      exact pairs.imp fun v w h' => h v w h'.loosen
    -- The other object fits as well, since each of its values stands under its key in this one.
    have fits {ds es : List (String × Json)} {d : Dict String α}
        (same : ∀ k, (under k ds).map read = (under k es).map read)
        (hd : dict read (.obj ds) = .fits d) : ∃ d', dict read (.obj es) = .fits d' := by
      refine exists_dict fun e he => ?_
      have there : read e.2 ∈ (under e.1 es).map read :=
        List.mem_map_of_mem (List.mem_map.2 ⟨e, List.mem_filter.2 ⟨he, beq_self_eq_true _⟩, rfl⟩)
      rw [← same, dict_under hd] at there
      obtain ⟨a, -, ha⟩ := List.mem_map.1 there
      exact ⟨a, ha.symm⟩
    cases hd : dict read (.obj ds) with
    | fits d =>
      obtain ⟨d', hd'⟩ := fits same hd
      rw [hd']
      refine .fits fun k => ?_
      refine List.map_injective_iff.2 (fun _ _ => Checked.fits.inj) ?_
      rw [← dict_under hd, same, dict_under hd']
    | fails ms =>
      cases hd' : dict read (.obj es) with
      | fits d' =>
        obtain ⟨d, hd''⟩ := fits (fun k => (same k).symm) hd'
        rw [hd] at hd''
        cases hd''
      | fails ns => exact .fails
  | _ => exact .fails

end

end ApiGraph.Shape
