import ApiGraph.Entity.Writer
import ApiGraph.Proofs.Json.Finite
import ApiGraph.Proofs.Links

/-! What remains of a model once it is written: its free values lose the doubles that have no JSON
form. The rest is written as the whole was, except that such a double leaves a null behind, and a
default of null is written in another place than a default that was turned into null. -/

namespace ApiGraph

open Entity Json

/-- A member without doubles that have no JSON form. -/
def Field.finite (f : Field) : Field :=
  { f with
    subtype := f.subtype.finite
    enum := f.enum.finite
    default := f.default.map Json.finite
    validations := finiteEntries f.validations
    extras := finiteEntries f.extras }

mutual

/-- A model without doubles that have no JSON form, nor any in the models that it embeds. -/
def Model.finite : Model → Model
  | .mk name kind source location type subtype array enum default description validations extras
      dependencies fields allOf anyOf oneOf =>
    .mk name kind source.finite location type subtype.finite array enum.finite
      (default.map Json.finite) description (finiteEntries validations) (finiteEntries extras)
      (finiteLinks dependencies) (fields.map Field.finite) (finiteBranch allOf)
      (finiteBranch anyOf) (finiteBranch oneOf)

/-- The branches of a combination, likewise. -/
def finiteBranch : Option (List (Link Model)) → Option (List (Link Model))
  | some links => some (finiteLinks links)
  | none => none

/-- Links, likewise. -/
def finiteLinks : List (Link Model) → List (Link Model)
  | [] => []
  | link :: rest => finiteLink link :: finiteLinks rest

/-- A link, likewise. A handle remains as it is. -/
def finiteLink : Link Model → Link Model
  | .ref r => .ref r
  | .model m => .model m.finite

end

/-- Something holds of a model and of the models that it embeds, at any depth. Handles are of the
kinds of handles, and models are not. -/
inductive Model.Throughout (P : Model → Prop) : Model → Prop
  | intro {m : Model} (here : P m) (refs : ∀ r : Ref, .ref r ∈ m.inner → r.kind.isRef = true)
    (kinds : ∀ k : Model, .model k ∈ m.inner → k.kind.isRef = false)
    (models : ∀ k : Model, .model k ∈ m.inner → Throughout P k) : Throughout P m

/-- Neither the format nor the enumeration of a member is a double without a JSON form. -/
structure Field.Bounded (f : Field) : Prop where
  subtype : f.subtype.isUnbounded = false
  enum : f.enum.isUnbounded = false

/-- No value of a model that is left out when it is null is a double without a JSON form. -/
structure Model.Bounded (m : Model) : Prop where
  source : m.source.isUnbounded = false
  subtype : m.subtype.isUnbounded = false
  enum : m.enum.isUnbounded = false
  fields : ∀ f ∈ m.fields, f.Bounded

variable {m : Model} {links : List (Link Model)} {key : String} {v : Json}
  {branch : Option (List (Link Model))}

namespace Model

theorem Throughout.imp {P Q : Model → Prop} (h : m.Throughout P) (sub : ∀ k, P k → Q k) :
    m.Throughout Q := by
  induction h with
  | intro here refs kinds _ ih => exact .intro (sub _ here) refs kinds ih

theorem dependencies_subset : m.dependencies ⊆ m.inner := List.subset_append_left _ _

theorem allOf_subset : m.allOf.getD [] ⊆ m.inner := fun l hl => by simp [inner, branches, hl]

theorem anyOf_subset : m.anyOf.getD [] ⊆ m.inner := fun l hl => by simp [inner, branches, hl]

theorem oneOf_subset : m.oneOf.getD [] ⊆ m.inner := fun l hl => by simp [inner, branches, hl]

theorem sizeOf_lt_of_mem_inner {k : Model} (h : Link.model k ∈ m.inner) : sizeOf k < sizeOf m := by
  have lift {links : List (Link Model)} (hk : .model k ∈ links) : sizeOf k < sizeOf links := by
    have := List.sizeOf_lt_of_mem hk
    rw [Link.model.sizeOf_spec] at this
    omega
  have branch {links : Option (List (Link Model))} (hk : .model k ∈ links.getD []) :
      sizeOf k < sizeOf links := by
    cases links with
    | none => cases hk
    | some links =>
      have : sizeOf k < sizeOf links := lift hk
      rw [Option.some.sizeOf_spec]
      omega
  cases m
  simp only [inner, branches, List.mem_append] at h
  rw [Model.mk.sizeOf_spec]
  rcases h with h | (h | h) | h
  · have := lift h
    omega
  all_goals
    have := branch h
    omega

/-- What holds of a model when it holds of the models that it embeds holds of every model. -/
@[elab_as_elim]
theorem induction {motive : Model → Prop}
    (embeds : ∀ m : Model, (∀ k, .model k ∈ m.inner → motive k) → motive m) (m : Model) : motive m :=
  embeds m fun k hk =>
    have := sizeOf_lt_of_mem_inner hk
    induction embeds k
termination_by sizeOf m

end Model

theorem finiteLinks_eq_map (links : List (Link Model)) : finiteLinks links = links.map finiteLink := by
  induction links with
  | nil => rfl
  | cons link links ih => rw [finiteLinks, ih, List.map_cons]

theorem finiteBranch_eq_map (branch : Option (List (Link Model))) :
    finiteBranch branch = branch.map (List.map finiteLink) := by
  cases branch with
  | none => rfl
  | some links => rw [finiteBranch, finiteLinks_eq_map, Option.map_some]

theorem linksJson_eq_map (links : List (Link Model)) : linksJson links = links.map linkJson := by
  induction links with
  | nil => rfl
  | cons link links ih => rw [linksJson, ih, List.map_cons]

theorem branchEntry_eq (key : String) (branch : Option (List (Link Model))) :
    branchEntry key branch = entry? key (branch.map fun links => .arr (links.map linkJson)) := by
  cases branch with
  | none => rfl
  | some links => rw [branchEntry, linksJson_eq_map, Option.map_some, entry?]

theorem nonNullEntry_finite (h : v.isUnbounded = false) :
    nonNullEntry key v.finite = nonNullEntry key v := by
  rw [nonNullEntry, nonNullEntry, nonNull_finite h, Option.map_map]
  refine congrArg _ (congrArg (Option.map · v.nonNull) (funext fun w => ?_))
  exact finite_finite w

theorem freeEntry_finite (key : String) (es : List (String × Json)) :
    freeEntry key (finiteEntries es) = freeEntry key es := by
  rw [freeEntry, freeEntry, finiteEntries_finiteEntries]

@[simp] theorem lookup_entry (k key : String) (v : Json) :
    (entry key v).lookup k = if k == key then some v else none := by
  cases hk : k == key <;> simp [entry, List.lookup_cons, hk]

@[simp] theorem lookup_entry? (k key : String) (o : Option Json) :
    ( entry? key o).lookup k = if k == key then o else none := by
  cases o <;> cases hk : k == key <;> simp [ entry?, List.lookup_cons, hk]

/-- A default that was turned into null is written at the end, whatever is written after it. -/
theorem alike_default {ds es ds' es' : List (String × Json)} (d : Option Json)
    (before : Aligned ds es) (after : Aligned ds' es') (h : es'.lookup "default" = none) :
    Alike (.obj (ds ++ (defaultEntry (d.map Json.finite) ++ (ds' ++ nullDefault (d.map Json.finite)))))
      (.obj (es ++ (defaultEntry d ++ (es' ++ nullDefault d)))) := by
  have kept (d : Option Json) : Alike (.obj (ds ++ (defaultEntry d ++ (ds' ++ nullDefault d))))
      (.obj (es ++ (defaultEntry d ++ (es' ++ nullDefault d)))) :=
    (before.append ((Aligned.refl _).append (after.append (.refl _)))).obj
  cases d with
  | none => exact kept none
  | some v =>
    cases hv : v.isUnbounded with
    | true =>
      obtain ⟨x, rfl, hx⟩ : ∃ x, v = .float x ∧ x.isFinite = false := by
        cases v with
        | float x => exact ⟨x, rfl, by simpa [isUnbounded] using hv⟩
        | _ => cases hv
      have last := (before.append (after.append (.refl [("default", .null)]))).obj
      have moved : Alike (.obj (es ++ (es' ++ [("default", .null)])))
          (.obj (es ++ ([("default", .null)] ++ es'))) := by
        refine .moved fun hm => ?_
        obtain ⟨p, hp, he⟩ := List.mem_map.1 hm
        exact absurd (List.lookup_eq_none_iff.1 h p hp) (by simp [he])
      have lost : Json.finite (.float x) = .null := by simp [Json.finite, hx]
      simpa [defaultEntry, nullDefault, entry?, nonNull, lost] using last.trans moved
    | false =>
      have same : defaultEntry (some v.finite) = defaultEntry (some v) := by
        simp only [defaultEntry, Option.bind_some, nonNull_finite hv, Option.map_map]
        refine congrArg _ (congrArg (Option.map · v.nonNull) (funext fun w => ?_))
        exact finite_finite w
      have null : nullDefault (some v.finite) = nullDefault (some v) := by
        cases v with
        | float x => rw [Json.finite, if_pos (by simpa [isUnbounded] using hv)]
        | _ => rfl
      rw [Option.map_some, same, null]
      exact kept (some v)

namespace Field

/-- What is written of a member before its default. -/
def beforeDefault (f : Field) : List (String × Json) :=
  entry "name" (.str f.name) ++ entry "kind" (.str f.kind.word) ++ textEntry "type" f.type ++
    nonNullEntry "subtype" f.subtype ++ nonNullEntry "enum" f.enum ++ flagEntry "array" f.array ++
    entry "required" (.bool f.required)

/-- What is written of a member after its default. -/
def afterDefault (f : Field) : List (String × Json) :=
  textEntry "description" f.description ++ freeEntry "validations" f.validations ++
    freeEntry "extras" f.extras

theorem toJson_eq (f : Field) : f.toJson =
    .obj (f.beforeDefault ++ (defaultEntry f.default ++ (f.afterDefault ++ nullDefault f.default))) := by
  simp only [toJson, beforeDefault, afterDefault, List.append_assoc]

theorem alike_toJson {f : Field} (h : f.Bounded) : Alike f.finite.toJson f.toJson := by
  have before : f.finite.beforeDefault = f.beforeDefault := by
    simp only [beforeDefault, finite, nonNullEntry_finite h.subtype, nonNullEntry_finite h.enum]
  have after : f.finite.afterDefault = f.afterDefault := by
    simp only [afterDefault, finite, freeEntry_finite]
  rw [toJson_eq, toJson_eq, before, after]
  exact alike_default f.default (.refl _) (.refl _)
    (by simp [afterDefault, List.lookup_append, textEntry, freeEntry])

end Field

namespace Model

/-- What is written of a model before its default. -/
def beforeDefault (m : Model) : List (String × Json) :=
  entry "name" (.str m.name) ++ entry "kind" (.str m.kind.word) ++
    nonNullEntry "sourceSchema" m.source ++ textEntry "location" m.location ++
    textEntry "type" m.type ++ nonNullEntry "subtype" m.subtype ++ flagEntry "array" m.array ++
    nonNullEntry "enum" m.enum

/-- What is written of a model after its default. -/
def afterDefault (m : Model) : List (String × Json) :=
  textEntry "description" m.description ++ freeEntry "validations" m.validations ++
    freeEntry "extras" m.extras ++ entry "dependencies" (.arr (m.dependencies.map linkJson)) ++
    entry "fields" (.arr (m.fields.map Field.toJson)) ++
    entry? "allOf" (m.allOf.map fun links => .arr (links.map linkJson)) ++
    entry? "anyOf" (m.anyOf.map fun links => .arr (links.map linkJson)) ++
    entry? "oneOf" (m.oneOf.map fun links => .arr (links.map linkJson))

theorem toJson_eq (m : Model) : m.toJson =
    .obj (m.beforeDefault ++ (defaultEntry m.default ++ (m.afterDefault ++ nullDefault m.default))) := by
  cases m
  simp only [toJson, beforeDefault, afterDefault, List.append_assoc, linksJson_eq_map, branchEntry_eq]

theorem finite_eq (m : Model) : m.finite =
    { m with
      source := m.source.finite
      subtype := m.subtype.finite
      enum := m.enum.finite
      default := m.default.map Json.finite
      validations := finiteEntries m.validations
      extras := finiteEntries m.extras
      dependencies := m.dependencies.map finiteLink
      fields := m.fields.map Field.finite
      allOf := m.allOf.map (List.map finiteLink)
      anyOf := m.anyOf.map (List.map finiteLink)
      oneOf := m.oneOf.map (List.map finiteLink) } := by
  cases m
  simp only [finite, finiteLinks_eq_map, finiteBranch_eq_map]

/-- What remains of a model is written as the whole. -/
theorem alike_toJson (h : m.Throughout Bounded) : Alike m.finite.toJson m.toJson := by
  induction h with
  | @intro m here refs kinds models ih =>
    have links {links : List (Link Model)} (sub : links ⊆ m.inner) :
        Alike (.arr ((links.map finiteLink).map linkJson)) (.arr (links.map linkJson)) := by
      rw [List.map_map]
      refine .map_arr fun link hl => ?_
      cases link with
      | ref r => exact .refl _
      | model k => exact ih k (sub hl)
    have branch {links : Option (List (Link Model))} (key : String) (sub : links.getD [] ⊆ m.inner) :
        Aligned
          ( entry? key ((links.map (List.map finiteLink)).map fun links => .arr (links.map linkJson)))
          ( entry? key (links.map fun links => .arr (links.map linkJson))) := by
      cases links with
      | none => exact .refl _
      | some links' => exact .entry (links sub)
    have fields : Alike (.arr ((m.fields.map Field.finite).map Field.toJson))
        (.arr (m.fields.map Field.toJson)) := by
      rw [List.map_map]
      exact .map_arr fun f hf => Field.alike_toJson (here.fields f hf)
    have before : m.finite.beforeDefault = m.beforeDefault := by
      simp only [finite_eq, beforeDefault, nonNullEntry_finite here.source,
        nonNullEntry_finite here.subtype, nonNullEntry_finite here.enum]
    have after : Aligned m.finite.afterDefault m.afterDefault := by
      simp only [finite_eq, afterDefault, freeEntry_finite]
      exact ((((Aligned.refl _).append (.entry (links dependencies_subset))).append
        (.entry fields)).append (branch _ allOf_subset)).append (branch _ anyOf_subset) |>.append
        (branch _ oneOf_subset)
    rw [toJson_eq, toJson_eq, before,
      show m.finite.default = m.default.map Json.finite by rw [finite_eq]]
    exact alike_default m.default (.refl _) after
      (by simp [afterDefault, List.lookup_append, textEntry, freeEntry])

end Model

end ApiGraph
