import ApiGraph.Json.Shown
import ApiGraph.Proofs.Json.Finite

/-! Documents that are the same but for the order of keys. An object that is walked through keeps
its order, and so does every other one once its keys are put in order. What is read from such
documents is the same, or the same but for the order of keys. -/

namespace ApiGraph.Json

/-- The keys whose objects are walked through in the order in which they are written. -/
def walkedKeys : List String :=
  ["paths", "schemas", "responses", "parameters", "requestBodies", "headers", "securitySchemes",
    "properties", "content"]

/-- The keys whose values are told apart as they are written. -/
def literalKeys : List String := ["name", "in", "type", "tags", "$ref"]

mutual

/-- A value with the keys of its objects in order, except in objects that are walked through. -/
def arranged (walked : Bool) : Json → Json
  | .arr items => .arr (arrangedItems items)
  | .obj entries =>
    .obj (if walked then arrangedEntries entries else sortEntries (arrangedEntries entries))
  | v => v

/-- Each item, arranged. -/
def arrangedItems : List Json → List Json
  | [] => []
  | v :: rest => arranged false v :: arrangedItems rest

/-- The value of each entry, arranged. -/
def arrangedEntries : List (String × Json) → List (String × Json)
  | [] => []
  | (k, v) :: rest => (k, arranged (walkedKeys.contains k) v) :: arrangedEntries rest

end

mutual

/-- Whether a value is an object or has one inside. -/
def hasObject : Json → Bool
  | .arr items => anyHasObject items
  | .obj _ => true
  | _ => false

/-- The same for any of some items. -/
def anyHasObject : List Json → Bool
  | [] => false
  | v :: rest => hasObject v || anyHasObject rest

end

mutual

/-- Whether there is no object in any value that is told apart as it is written. -/
def isLiteral : Json → Bool
  | .arr items => areLiteral items
  | .obj entries => areLiteralEntries entries
  | _ => true

/-- The same for some items. -/
def areLiteral : List Json → Bool
  | [] => true
  | v :: rest => isLiteral v && areLiteral rest

/-- The same for some entries. -/
def areLiteralEntries : List (String × Json) → Bool
  | [] => true
  | (k, v) :: rest =>
    !(literalKeys.contains k && hasObject v) && isLiteral v && areLiteralEntries rest

end

/-- The values are the same but for the order of keys. An object that is walked through keeps its
order, and what is told apart as it is written is the same. -/
inductive Kin : Bool → Json → Json → Prop
  | null {walked : Bool} : Kin walked .null .null
  | bool {walked : Bool} (b : Bool) : Kin walked (.bool b) (.bool b)
  | int {walked : Bool} (n : Int) : Kin walked (.int n) (.int n)
  | float {walked : Bool} (x : Double) : Kin walked (.float x) (.float x)
  | str {walked : Bool} (s : String) : Kin walked (.str s) (.str s)
  | arr {walked : Bool} {vs ws : List Json} (length : vs.length = ws.length)
    (items : ∀ (i : Nat) (v w : Json), vs[i]? = some v → ws[i]? = some w → Kin false v w) :
    Kin walked (.arr vs) (.arr ws)
  | obj {walked : Bool} {ds es : List (String × Json)}
    (order : walked = true → Dict.keys ds = Dict.keys es)
    (length : ∀ k, (under k ds).length = (under k es).length)
    (values : ∀ (k : String) (i : Nat) (v w : Json), (under k ds)[i]? = some v →
      (under k es)[i]? = some w → Kin (walkedKeys.contains k) v w)
    (literal : ∀ k ∈ literalKeys, under k ds = under k es) : Kin walked (.obj ds) (.obj es)

variable {walked : Bool} {v w : Json} {vs ws : List Json} {ds es : List (String × Json)}
  {k : String}

theorem forall₂_of_getElem? {α β : Type} {R : α → β → Prop} {as : List α} {bs : List β}
    (length : as.length = bs.length)
    (items : ∀ (i : Nat) (a : α) (b : β), as[i]? = some a → bs[i]? = some b → R a b) :
    List.Forall₂ R as bs := by
  refine List.forall₂_iff_get.2 ⟨length, fun i ha hb => ?_⟩
  exact items i _ _ (List.getElem?_eq_getElem ha) (List.getElem?_eq_getElem hb)

theorem isSome_eq {α β : Type} {R : α → β → Prop} {a : Option α} {b : Option β}
    (h : Option.Rel R a b) : a.isSome = b.isSome := by
  cases h <;> rfl

theorem rel_map {α β γ δ : Type} {R : α → β → Prop} {S : γ → δ → Prop} {a : Option α} {b : Option β}
    {f : α → γ} {g : β → δ} (h : Option.Rel R a b) (hf : ∀ x y, R x y → S (f x) (g y)) :
    Option.Rel S (a.map f) (b.map g) := by
  cases h with
  | none => exact .none
  | some h => exact .some (hf _ _ h)

theorem rel_imp {α β : Type} {R S : α → β → Prop} {a : Option α} {b : Option β}
    (h : Option.Rel R a b) (hs : ∀ x y, R x y → S x y) : Option.Rel S a b := by
  cases h with
  | none => exact .none
  | some h => exact .some (hs _ _ h)

theorem any_eq {α β : Type} {R : α → β → Prop} {as : List α} {bs : List β} {f : α → Bool}
    {g : β → Bool} (h : List.Forall₂ R as bs) (hf : ∀ a b, R a b → f a = g b) :
    as.any f = bs.any g := by
  induction h with
  | nil => rfl
  | cons first _ ih => rw [List.any_cons, List.any_cons, hf _ _ first, ih]

theorem filterMap_eq {α β γ : Type} {R : α → β → Prop} {as : List α} {bs : List β}
    {f : α → Option γ} {g : β → Option γ} (h : List.Forall₂ R as bs)
    (hf : ∀ a b, R a b → f a = g b) : as.filterMap f = bs.filterMap g := by
  induction h with
  | nil => rfl
  | cons first _ ih => rw [List.filterMap_cons, List.filterMap_cons, hf _ _ first, ih]

namespace Kin

theorem refl (v : Json) : Kin walked v v := by
  induction v using Json.induction generalizing walked with
  | null => exact .null
  | bool b => exact .bool b
  | int n => exact .int n
  | float x => exact .float x
  | str s => exact .str s
  | arr vs ih =>
    refine .arr rfl fun i v w hv hw => ?_
    obtain rfl : v = w := Option.some.inj (hv.symm.trans hw)
    exact ih v (List.mem_of_getElem? hv)
  | obj es ih =>
    refine .obj (fun _ => rfl) (fun _ => rfl) (fun k i v w hv hw => ?_) fun _ _ => rfl
    obtain rfl : v = w := Option.some.inj (hv.symm.trans hw)
    exact ih (k, v) (mem_of_mem_under (List.mem_of_getElem? hv))

/-- What keeps its order is the same but for the order. -/
theorem loosen (h : Kin walked v w) : Kin false v w := by
  cases h with
  | null => exact .null
  | bool b => exact .bool b
  | int n => exact .int n
  | float x => exact .float x
  | str s => exact .str s
  | arr length items => exact .arr length items
  | obj _ length values literal => exact .obj nofun length values literal

theorem alike (h : Kin walked v w) : Alike v w := by
  induction h with
  | null => exact .null
  | bool b => exact .bool b
  | int n => exact .int n
  | float x => exact .float rfl
  | str s => exact .str s
  | arr length _ ih => exact .arr length ih
  | obj _ length _ _ ih => exact .obj length ih

theorem canonical_eq (h : Kin walked v w) : v.canonical = w.canonical := canonical_eq_iff.2 h.alike

theorem isObject_eq (h : Kin walked v w) : v.isObject = w.isObject := h.alike.isObject_eq

theorem isNull_eq (h : Kin walked v w) : v.isNull = w.isNull := h.alike.isNull_eq

theorem text?_eq (h : Kin walked v w) : v.text? = w.text? := h.alike.text?_eq

theorem has_eq (h : Kin walked v w) (k : String) : v.has k = w.has k := h.alike.has_eq k

theorem typeName_eq (h : Kin walked v w) : v.typeName = w.typeName := by
  cases h <;> rfl

theorem truthy_eq (h : Kin walked v w) : v.truthy = w.truthy := by
  have empty {α β : Type} {as : List α} {bs : List β} (h : as = [] ↔ bs = []) :
      (!as.isEmpty) = !bs.isEmpty := by
    rw [Bool.eq_iff_iff]
    simpa using not_congr h
  cases h with
  | @arr _ vs ws length _ =>
    exact empty (by rw [← List.length_eq_zero_iff, length, List.length_eq_zero_iff])
  | @obj _ ds es _ length =>
    have nil {ds es : List (String × Json)}
        (length : ∀ k, (under k ds).length = (under k es).length) (h : ds = []) : es = [] := by
      subst h
      cases es with
      | nil => rfl
      | cons e es => simpa [under] using length e.1
    exact empty ⟨nil length, nil fun k => (length k).symm⟩
  | _ => rfl

/-- The keys are the same, and what stands under them is the same but for the order of keys. -/
theorem get? (h : Kin walked v w) (k : String) :
    Option.Rel (Kin (walkedKeys.contains k)) (v.get? k) (w.get? k) := by
  cases h with
  | @obj _ ds es _ length values =>
    simp only [Json.get?, lookup_eq_head?_under]
    have hl := length k
    cases hd : under k ds with
    | nil =>
      rw [hd] at hl
      rw [List.length_eq_zero_iff.1 hl.symm]
      exact .none
    | cons a as =>
      cases he : under k es with
      | nil => simp [hd, he] at hl
      | cons b bs => exact .some (values k 0 a b (by rw [hd]; rfl) (by rw [he]; rfl))
  | _ => exact .none

theorem get (h : Kin walked v w) (k : String) :
    Kin (walkedKeys.contains k) (v.get k) (w.get k) := by
  unfold Json.get
  have h := h.get? k
  generalize v.get? k = a at h ⊢
  generalize w.get? k = b at h ⊢
  cases h with
  | some h => exact h
  | none => exact .null

/-- What is walked through keeps its order. -/
theorem walk (h : Kin walked v w) (hk : walkedKeys.contains k = true) :
    Kin true (v.get k) (w.get k) := hk ▸ h.get k

/-- What is told apart as it is written is the same. -/
theorem get?_literal (h : Kin walked v w) (hk : k ∈ literalKeys) : v.get? k = w.get? k := by
  cases h with
  | obj _ _ _ literal => simp only [Json.get?, lookup_eq_head?_under, literal k hk]
  | _ => rfl

theorem get_literal (h : Kin walked v w) (hk : k ∈ literalKeys) : v.get k = w.get k := by
  rw [Json.get, Json.get, h.get?_literal hk]

theorem nonNull (h : Kin walked v w) : Option.Rel (Kin walked) v.nonNull w.nonNull := by
  cases h with
  | null => exact .none
  | bool b => exact .some (.bool b)
  | int n => exact .some (.int n)
  | float x => exact .some (.float x)
  | str s => exact .some (.str s)
  | arr length items => exact .some (.arr length items)
  | obj order length values literal => exact .some (.obj order length values literal)

theorem items (h : Kin walked (.arr vs) (.arr ws)) : List.Forall₂ (Kin false) vs ws := by
  cases h with
  | arr length items => exact forall₂_of_getElem? length items

theorem under (h : Kin walked (.obj ds) (.obj es)) (k : String) :
    List.Forall₂ (Kin (walkedKeys.contains k)) (under k ds) (under k es) := by
  cases h with
  | obj _ length values => exact forall₂_of_getElem? (length k) (values k)

theorem of_under (order : walked = true → Dict.keys ds = Dict.keys es)
    (values : ∀ k, List.Forall₂ (Kin (walkedKeys.contains k)) (Json.under k ds) (Json.under k es))
    (literal : ∀ k ∈ literalKeys, Json.under k ds = Json.under k es) :
    Kin walked (.obj ds) (.obj es) := by
  refine .obj order (fun k => (values k).length_eq) (fun k i v w hv hw => ?_) literal
  obtain ⟨hi, rfl⟩ := List.getElem?_eq_some_iff.1 hv
  obtain ⟨hj, rfl⟩ := List.getElem?_eq_some_iff.1 hw
  exact (values k).get hi hj

end Kin

/-- The entries have the same keys one by one, and their values are the same but for the order of
keys. -/
def Paired (ds es : List (String × Json)) : Prop :=
  List.Forall₂ (fun d e => d.1 = e.1 ∧ Kin false d.2 e.2) ds es

theorem under_cons {α : Type} (k : String) (e : String × α) (es : List (String × α)) :
    under k (e :: es) = if e.1 = k then e.2 :: under k es else under k es := by
  by_cases h : e.1 = k <;> simp [under, h]

theorem under_put (j : String) :
    under j (Dict.put ds k v) = if k = j then v :: (under j ds).tail else under j ds := by
  induction ds with
  | nil => rw [Dict.put, under_cons]; rfl
  | cons d ds ih =>
    obtain ⟨key, u⟩ := d
    rw [Dict.put]
    split
    · next hk =>
      obtain rfl := eq_of_beq hk
      rw [under_cons, under_cons]
      split <;> rfl
    · next hk =>
      rw [under_cons, under_cons, ih]
      by_cases hj : k = j
      · have hne : key ≠ j := fun h => hk (by simp [h, hj])
        simp [hj, hne]
      · simp [hj]

/-- The same value under the same key leaves objects alike. -/
theorem Alike.put (h : Alike (.obj ds) (.obj es)) (k : String) (v : Json) :
    Alike (.obj (Dict.put ds k v)) (.obj (Dict.put es k v)) := by
  cases h with
  | obj length values =>
    refine .obj (fun j => ?_) fun j i a b ha hb => ?_
    · rw [under_put, under_put]
      split
      · simp [length j]
      · exact length j
    · rw [under_put] at ha hb
      split at ha
      · next hj =>
        rw [if_pos hj] at hb
        cases i with
        | zero =>
          obtain rfl := Option.some.inj ha
          obtain rfl := Option.some.inj hb
          exact .refl _
        | succ i =>
          rw [List.getElem?_cons_succ, List.getElem?_tail] at ha hb
          exact values j _ _ _ ha hb
      · next hj =>
        rw [if_neg hj] at hb
        exact values j _ _ _ ha hb

/-- Objects that are walked through have the same entries one by one. -/
theorem Kin.paired (h : Kin true (.obj ds) (.obj es)) : Paired ds es := by
  have pair (ds es : List (String × Json)) (order : Dict.keys ds = Dict.keys es)
      (values : ∀ k, List.Forall₂ (Kin (walkedKeys.contains k)) (Json.under k ds)
        (Json.under k es)) : Paired ds es := by
    induction ds generalizing es with
    | nil =>
      obtain rfl : es = [] := List.map_eq_nil_iff.1 order.symm
      exact .nil
    | cons d ds ih =>
      cases es with
      | nil => cases order
      | cons e es =>
        obtain ⟨hk, order⟩ := List.cons.inj order
        have first := values d.1
        rw [under_cons, under_cons, if_pos rfl, if_pos hk.symm] at first
        cases first with
        | cons here rest =>
          refine .cons ⟨hk, here.loosen⟩ (ih es order fun k => ?_)
          have values := values k
          rw [under_cons, under_cons, ← hk] at values
          split at values
          · next h => exact h ▸ rest
          · exact values
  cases h with
  | obj order length values =>
    exact pair ds es (order rfl) fun k => forall₂_of_getElem? (length k) (values k)

namespace Kin

/-- The parts of what is walked through are the same one by one. -/
theorem parts? (h : Kin true v w) : Option.Rel (List.Forall₂ (Kin false)) v.parts? w.parts? := by
  cases h with
  | str s => exact .some (List.forall₂_same.2 fun v _ => refl v)
  | arr length items => exact .some (forall₂_of_getElem? length items)
  | @obj _ ds es order =>
    have keys (es : List (String × Json)) :
        es.map (fun p => Json.str p.1) = (Dict.keys es).map .str := by simp [Dict.keys]
    have same : es.map (fun p => Json.str p.1) = ds.map fun p => .str p.1 := by
      rw [keys, keys, order rfl]
    refine .some ?_
    rw [same]
    exact List.forall₂_same.2 fun v _ => refl v
  | _ => exact .none

theorem map_under_eq {α : Type} {f : Json → α} (h : ∀ k, List.Forall₂ (fun v w => f v = f w)
    (Json.under k ds) (Json.under k es)) :
    sortEntries (ds.map fun p => (p.1, f p.2)) = sortEntries (es.map fun p => (p.1, f p.2)) := by
  refine sortEntries_eq_iff.2 fun k => ?_
  rw [under_map, under_map]
  exact List.forall₂_eq_eq_eq ▸ (List.forall₂_map_left_iff.2 (List.forall₂_map_right_iff.2 (h k)))

/-- Values are as large as each other. -/
theorem size_eq (h : Kin walked v w) : v.size = w.size := by
  have items (vs : List Json) : sizeItems vs = (vs.map size).sum := by
    induction vs with
    | nil => rfl
    | cons v vs ih => rw [sizeItems, ih, List.map_cons, List.sum_cons]
  have entries (es : List (String × Json)) :
      sizeEntries es = ((es.map fun p => (p.1, p.2.size)).map Prod.snd).sum := by
    induction es with
    | nil => rfl
    | cons e es ih => rw [sizeEntries, ih, List.map_cons, List.map_cons, List.sum_cons]
  induction h with
  | @arr _ vs ws length _ ih =>
    rw [size, size, items, items, map_eq_of_getElem? length ih]
  | @obj _ ds es _ length _ _ ih =>
    have same := map_under_eq (f := size) fun k => forall₂_of_getElem? (length k) (ih k)
    have sorted (xs : List (String × Nat)) : (sortEntries xs).Perm xs := List.mergeSort_perm _ _
    have perm : (ds.map fun p => (p.1, p.2.size)).Perm (es.map fun p => (p.1, p.2.size)) := by
      refine (sorted _).symm.trans ?_
      rw [same]
      exact sorted _
    rw [size, size, entries, entries, (perm.map Prod.snd).sum_nat]
  | _ => rfl

/-- The values are the same but for the order of keys also without the doubles that have no JSON
form. -/
theorem alike_finite (h : Kin walked v w) : Alike v.finite w.finite := by
  induction h with
  | @arr _ vs ws length _ ih =>
    rw [finite, finite, finiteItems_eq_map, finiteItems_eq_map]
    refine .arr (by simpa using length) fun i v w hv hw => ?_
    rw [List.getElem?_map, Option.map_eq_some_iff] at hv hw
    obtain ⟨v, hv, rfl⟩ := hv
    obtain ⟨w, hw, rfl⟩ := hw
    exact ih i v w hv hw
  | @obj _ ds es _ length _ _ ih =>
    rw [finite, finite, finiteEntries_eq_map, finiteEntries_eq_map]
    refine .obj (fun k => ?_) fun k i v w hv hw => ?_
    · simpa only [under_map, List.length_map] using length k
    · rw [under_map, List.getElem?_map, Option.map_eq_some_iff] at hv hw
      obtain ⟨v, hv, rfl⟩ := hv
      obtain ⟨w, hw, rfl⟩ := hw
      exact ih k i v w hv hw
  | _ => exact .refl _

/-- An entry may be written into both objects. -/
theorem put (h : Kin walked (.obj ds) (.obj es)) (v : Json) :
    Kin false (.obj (Dict.put ds k v)) (.obj (Dict.put es k v)) := by
  refine of_under nofun (fun j => ?_) fun j hj => ?_
  · rw [under_put, under_put]
    split
    · have := h.under j
      generalize Json.under j ds = as at this
      generalize Json.under j es = bs at this
      cases this with
      | nil => exact .cons (refl v) .nil
      | cons _ rest => exact .cons (refl v) rest
    · exact h.under j
  · cases h with
    | obj _ _ _ literal => rw [under_put, under_put, literal j hj]

end Kin

theorem arrangedItems_eq_map (vs : List Json) : arrangedItems vs = vs.map (arranged false) := by
  induction vs with
  | nil => rfl
  | cons v vs ih => rw [arrangedItems, ih, List.map_cons]

theorem arrangedEntries_eq_map (es : List (String × Json)) :
    arrangedEntries es = es.map fun p => (p.1, arranged (walkedKeys.contains p.1) p.2) := by
  induction es with
  | nil => rfl
  | cons e es ih => rw [arrangedEntries, ih, List.map_cons]

theorem under_arrangedEntries (k : String) (es : List (String × Json)) :
    under k (arrangedEntries es) = (under k es).map (arranged (walkedKeys.contains k)) := by
  rw [arrangedEntries_eq_map]
  induction es with
  | nil => rfl
  | cons e es ih =>
    rw [List.map_cons, under_cons, under_cons, ih]
    split
    · next h => rw [List.map_cons, ← h]
    · rfl

theorem anyHasObject_eq_any (vs : List Json) : anyHasObject vs = vs.any hasObject := by
  induction vs with
  | nil => rfl
  | cons v vs ih => rw [anyHasObject, ih, List.any_cons]

theorem hasObject_arranged (v : Json) : hasObject (arranged walked v) = hasObject v := by
  induction v using Json.induction generalizing walked with
  | arr vs ih =>
    rw [arranged, hasObject, hasObject, arrangedItems_eq_map, anyHasObject_eq_any,
      anyHasObject_eq_any, List.any_map, Bool.eq_iff_iff, List.any_eq_true, List.any_eq_true]
    refine exists_congr fun v => and_congr_right fun hv => ?_
    rw [Function.comp_apply, ih v hv]
  | _ => rfl

/-- What has no object is arranged already. -/
theorem arranged_of_hasObject (h : hasObject v = false) : arranged walked v = v := by
  induction v using Json.induction generalizing walked with
  | arr vs ih =>
    rw [hasObject, anyHasObject_eq_any] at h
    rw [arranged, arrangedItems_eq_map]
    refine congrArg _ ((List.map_congr_left fun v hv => ?_).trans (List.map_id vs))
    exact ih v hv (by simpa using List.any_eq_false.1 h v hv)
  | obj => cases h
  | _ => rfl

theorem isLiteral_items (h : areLiteral vs = true) (hv : v ∈ vs) : isLiteral v = true := by
  induction vs with
  | nil => cases hv
  | cons u vs ih =>
    rw [areLiteral, Bool.and_eq_true] at h
    rcases List.mem_cons.1 hv with rfl | hv
    · exact h.1
    · exact ih h.2 hv

theorem isLiteral_entries (h : areLiteralEntries es = true) (hv : (k, v) ∈ es) :
    isLiteral v = true ∧ (k ∈ literalKeys → hasObject v = false) := by
  induction es with
  | nil => cases hv
  | cons e es ih =>
    obtain ⟨key, u⟩ := e
    simp only [areLiteralEntries, Bool.and_eq_true] at h
    rcases List.mem_cons.1 hv with he | hv
    · obtain ⟨rfl, rfl⟩ := Prod.mk.inj he
      refine ⟨h.1.2, fun hk => ?_⟩
      have := h.1.1
      rw [List.contains_iff_mem.2 hk, Bool.true_and] at this
      simpa using this
    · exact ih h.2 hv

/-- Documents that are the same once they are arranged are the same but for the order of keys. -/
theorem kin_of_arranged (literal : isLiteral v = true) (h : arranged walked v = arranged walked w) :
    Kin walked v w := by
  induction v using Json.induction generalizing walked w with
  | arr vs ih =>
    cases w with
    | arr ws =>
      simp only [arranged, arrangedItems_eq_map, Json.arr.injEq] at h
      refine .arr (by simpa using congrArg List.length h) fun i v w hv hw => ?_
      have hm := List.mem_of_getElem? hv
      exact ih v hm (isLiteral_items literal hm) (getElem?_of_map_eq h hv hw)
    | _ => cases h
  | obj ds ih =>
    cases w with
    | obj es =>
      simp only [arranged, Json.obj.injEq] at h
      have same (k : String) : (under k ds).map (arranged (walkedKeys.contains k)) =
          (under k es).map (arranged (walkedKeys.contains k)) := by
        rw [← under_arrangedEntries, ← under_arrangedEntries]
        split at h
        · rw [h]
        · exact sortEntries_eq_iff.1 h k
      refine .obj (fun hw => ?_) (fun k => by simpa using congrArg List.length (same k))
        (fun k i v w hv hw => ?_) fun k hk => ?_
      · rw [if_pos hw, if_pos hw, arrangedEntries_eq_map, arrangedEntries_eq_map] at h
        have keys := congrArg (List.map Prod.fst) h
        rw [List.map_map, List.map_map] at keys
        exact keys
      · have hm := mem_of_mem_under (List.mem_of_getElem? hv)
        exact ih (k, v) hm (isLiteral_entries literal hm).1 (getElem?_of_map_eq (same k) hv hw)
      · -- Neither side has an object under the key, so that arranging changes nothing.
        have fixed {vs : List Json} (h : ∀ v ∈ vs, hasObject v = false) :
            vs.map (arranged (walkedKeys.contains k)) = vs :=
          (List.map_congr_left fun v hv => arranged_of_hasObject (h v hv)).trans (List.map_id vs)
        have left : ∀ v ∈ under k ds, hasObject v = false := fun v hv =>
          (isLiteral_entries literal (mem_of_mem_under hv)).2 hk
        have right : ∀ w ∈ under k es, hasObject w = false := by
          intro w hw
          have hm : arranged (walkedKeys.contains k) w ∈ under k ds := by
            rw [← fixed left, same]
            exact List.mem_map_of_mem hw
          exact (hasObject_arranged w).symm.trans (left _ hm)
        rw [← fixed left, same, fixed right]
    | _ => cases h
  | null | bool | int | float | str =>
    cases w <;> cases h
    all_goals exact Kin.refl _

end ApiGraph.Json
