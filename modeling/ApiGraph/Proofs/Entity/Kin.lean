import ApiGraph.Proofs.Entity.Finite
import ApiGraph.Proofs.Json.Kin
import ApiGraph.Proofs.Schema.Keyword
import ApiGraph.Schema.Form

/-! Keywords, members and models that are the same but for the order of keys in the values that they
keep. They are written alike. -/

namespace ApiGraph

open Json (under Alike Aligned)

/-- What stands under each key is the same but for the order of keys. -/
def Dict.Kin (d d' : Dict String Json) : Prop :=
  ∀ k, List.Forall₂ (Json.Kin false) (under k d) (under k d')

/-- Members whose values are the same but for the order of keys. -/
structure Field.Kin (f f' : Field) : Prop where
  name : f.name = f'.name
  kind : f.kind = f'.kind
  type : f.type = f'.type
  subtype : Json.Kin false f.subtype f'.subtype
  enum : Json.Kin false f.enum f'.enum
  array : f.array = f'.array
  required : f.required = f'.required
  default : Option.Rel (Json.Kin false) f.default f'.default
  description : f.description = f'.description
  validations : Dict.Kin f.validations f'.validations
  extras : Dict.Kin f.extras f'.extras

/-- Links that are written alike. -/
def Link.Alike (l l' : Link Model) : Prop := Json.Alike (linkJson l) (linkJson l')

/-- Models whose values are the same but for the order of keys, and which embed models that are
written alike. -/
structure Model.Kin (m m' : Model) : Prop where
  name : m.name = m'.name
  kind : m.kind = m'.kind
  source : Json.Kin false m.source m'.source
  location : m.location = m'.location
  type : m.type = m'.type
  subtype : Json.Kin false m.subtype m'.subtype
  array : m.array = m'.array
  enum : Json.Kin false m.enum m'.enum
  default : Option.Rel (Json.Kin false) m.default m'.default
  description : m.description = m'.description
  validations : Dict.Kin m.validations m'.validations
  extras : Dict.Kin m.extras m'.extras
  dependencies : List.Forall₂ Link.Alike m.dependencies m'.dependencies
  fields : List.Forall₂ Field.Kin m.fields m'.fields
  allOf : Option.Rel (List.Forall₂ Link.Alike) m.allOf m'.allOf
  anyOf : Option.Rel (List.Forall₂ Link.Alike) m.anyOf m'.anyOf
  oneOf : Option.Rel (List.Forall₂ Link.Alike) m.oneOf m'.oneOf

/-- The same handle, or models that are the same but for the order of keys. -/
inductive Link.Kin : Link Model → Link Model → Prop
  | ref (r : Ref) : Kin (.ref r) (.ref r)
  | model {m m' : Model} (models : m.Kin m') : Kin (.model m) (.model m')

/-- Operations that are the same, except that a security requirement may name its schemes in another
order. -/
structure Method.Kin (m m' : Method) : Prop where
  same : m' = { m with security := m'.security }
  security : List.Forall₂ (fun r r' => Alike (requirementJson r) (requirementJson r')) m.security
    m'.security

/-- Entities that are the same but for the order of keys. -/
inductive Entity.Kin : Entity → Entity → Prop
  | method {m m' : Method} (methods : m.Kin m') : Kin (.method m) (.method m')
  | path (p : Path) : Kin (.path p) (.path p)
  | model {m m' : Model} (models : m.Kin m') : Kin (.model m) (.model m')
  | ref (r : Ref) : Kin (.ref r) (.ref r)

variable {d d' e e' : Dict String Json} {v w : Json} {walked : Bool} {key : String}

theorem Json.Kin.dict {d d' : List (String × Json)} (h : Json.Kin walked (.obj d) (.obj d')) :
    Dict.Kin d d' :=
  fun k => (h.under k).imp fun _ _ => Json.Kin.loosen

namespace Dict

/-- Writing entries replaces the first value under a key by one after the other. -/
theorem under_merge (k : String) (d e : Dict String Json) :
    under k (merge d e) = (under k e).foldl (fun vs v => v :: vs.tail) (under k d) := by
  induction e generalizing d with
  | nil => rfl
  | cons x e ih =>
    rw [merge, List.foldl_cons, ← merge, ih, Json.under_cons, Json.under_put]
    split
    · rw [List.foldl_cons]
    · rfl

/-- The entries with keys of one kind. -/
theorem under_filter (p : String → Bool) (k : String) (d : Dict String Json) :
    under k (d.filter fun x => p x.1) = if p k then under k d else [] := by
  induction d with
  | nil => simp [under]
  | cons x d ih =>
    rw [List.filter_cons]
    by_cases hk : x.1 = k
    · subst hk
      cases hp : p x.1 <;> simp [hp, Json.under_cons, ih]
    · cases hp : p x.1 <;> simp [Json.under_cons, hk, ih]

namespace Kin

theorem refl (d : Dict String Json) : d.Kin d :=
  fun _ => List.forall₂_same.2 fun v _ => Json.Kin.refl v

theorem one (h : Json.Kin false v w) : Dict.Kin [(key, v)] [(key, w)] := by
  intro k
  rw [Json.under_cons, Json.under_cons]
  split
  · exact .cons h .nil
  · exact .nil

theorem put (h : d.Kin d') (k : String) (hv : Json.Kin false v w) :
    (Dict.put d k v).Kin (Dict.put d' k w) := by
  intro j
  have hj := h j
  rw [Json.under_put, Json.under_put]
  generalize under j d = vs at hj
  generalize under j d' = ws at hj
  split
  · cases hj with
    | nil => exact .cons hv .nil
    | cons _ rest => exact .cons hv rest
  · exact hj

theorem merge (h : d.Kin d') (he : e.Kin e') : (Dict.merge d e).Kin (Dict.merge d' e') := by
  intro k
  have here := h k
  have there := he k
  rw [under_merge, under_merge]
  generalize under k d = vs at here
  generalize under k d' = ws at here
  generalize under k e = ds at there
  generalize under k e' = es at there
  induction there generalizing vs ws with
  | nil => exact here
  | cons hv _ ih =>
    refine ih _ _ (.cons hv ?_)
    cases here with
    | nil => exact .nil
    | cons _ rest => exact rest

theorem filter (h : d.Kin d') (p : String → Bool) :
    Dict.Kin (d.filter fun x => p x.1) (d'.filter fun x => p x.1) := by
  intro k
  rw [under_filter, under_filter]
  split
  · exact h k
  · exact .nil

theorem lookup (h : d.Kin d') (k : String) :
    Option.Rel (Json.Kin false) (d.lookup k) (d'.lookup k) := by
  have hk := h k
  rw [Json.lookup_eq_head?_under, Json.lookup_eq_head?_under]
  generalize under k d = vs at hk
  generalize under k d' = ws at hk
  cases hk with
  | nil => exact .none
  | cons hv _ => exact .some hv

theorem has_eq (h : d.Kin d') (k : String) : has d k = has d' k := Json.isSome_eq (h.lookup k)

/-- Keywords are written alike. -/
theorem alike (h : d.Kin d') :
    Alike (.obj (Json.finiteEntries d)) (.obj (Json.finiteEntries d')) := by
  have values (k : String) : List.Forall₂ Alike ((under k d).map Json.finite)
      ((under k d').map Json.finite) := by
    rw [List.forall₂_map_left_iff, List.forall₂_map_right_iff]
    exact (h k).imp fun _ _ => Json.Kin.alike_finite
  rw [Json.finiteEntries_eq_map, Json.finiteEntries_eq_map]
  refine .obj (fun k => ?_) fun k i v w hv hw => ?_
  · rw [Json.under_map, Json.under_map]
    exact (values k).length_eq
  · rw [Json.under_map] at hv hw
    obtain ⟨hi, rfl⟩ := List.getElem?_eq_some_iff.1 hv
    obtain ⟨hj, rfl⟩ := List.getElem?_eq_some_iff.1 hw
    exact (values k).get hi hj

end Kin

end Dict

namespace Schema

theorem kin_nullableOf (h : d.Kin d') : (nullableOf d).Kin (nullableOf d') := by
  have vendor := h.lookup "x-nullable"
  have plain := h.lookup "nullable"
  unfold nullableOf
  generalize d.lookup "x-nullable" = a at vendor
  generalize d'.lookup "x-nullable" = a' at vendor
  generalize d.lookup "nullable" = b at plain
  generalize d'.lookup "nullable" = b' at plain
  cases vendor with
  | some hv => exact .one hv
  | none =>
    cases plain with
    | some hv => exact .one hv
    | none => exact .refl _

theorem kin_validations (h : Json.Kin walked v w) :
    (keywords v).validations.Kin (keywords w).validations := by
  cases h with
  | obj order length values literal =>
    have entries := (Json.Kin.obj order length values literal).dict
    rw [keywords_obj, keywords_obj]
    exact (kin_nullableOf entries).merge (entries.filter _)
  | _ => exact .refl _

theorem kin_extras (h : Json.Kin walked v w) : (keywords v).extras.Kin (keywords w).extras := by
  cases h with
  | obj order length values literal =>
    have entries := (Json.Kin.obj order length values literal).dict
    rw [keywords_obj, keywords_obj]
    exact (Dict.Kin.refl []).merge (entries.filter _)
  | _ => exact .refl _

end Schema

namespace Entity

variable {a b : Option Json}

theorem aligned_entry? (h : Option.Rel Alike a b) : Aligned ( entry? key a) ( entry? key b) := by
  cases h with
  | some h => exact .entry h
  | none => exact .refl _

theorem aligned_nonNullEntry (h : Json.Kin walked v w) :
    Aligned (nonNullEntry key v) (nonNullEntry key w) :=
  aligned_entry? (Json.rel_map h.nonNull fun _ _ h => h.alike_finite)

theorem aligned_freeEntry (h : d.Kin d') : Aligned (freeEntry key d) (freeEntry key d') :=
  .entry h.alike

theorem aligned_defaultEntry (h : Option.Rel (Json.Kin walked) a b) :
    Aligned (defaultEntry a) (defaultEntry b) := by
  cases h with
  | none => exact .refl _
  | some h => exact aligned_nonNullEntry h

theorem nullDefault_eq (h : Option.Rel (Json.Kin walked) a b) : nullDefault a = nullDefault b := by
  cases h with
  | none => rfl
  | some h => cases h <;> rfl

/-- Lists of parts that are written alike are written alike. -/
theorem alike_map {α : Type} {f : α → Json} {as bs : List α}
    (h : List.Forall₂ (fun a b => Alike (f a) (f b)) as bs) :
    Alike (.arr (as.map f)) (.arr (bs.map f)) := by
  have parts : List.Forall₂ Alike (as.map f) (bs.map f) := by
    rwa [List.forall₂_map_left_iff, List.forall₂_map_right_iff]
  refine .arr parts.length_eq fun i v w hv hw => ?_
  obtain ⟨hi, rfl⟩ := List.getElem?_eq_some_iff.1 hv
  obtain ⟨hj, rfl⟩ := List.getElem?_eq_some_iff.1 hw
  exact parts.get hi hj

theorem aligned_branches {as bs : Option (List (Link Model))}
    (h : Option.Rel (List.Forall₂ Link.Alike) as bs) :
    Aligned ( entry? key (as.map fun links => .arr (links.map linkJson)))
      ( entry? key (bs.map fun links => .arr (links.map linkJson))) := by
  cases h with
  | none => exact .refl _
  | some h => exact .entry (alike_map h)

end Entity

open Entity

/-- Members are written alike. -/
theorem Field.Kin.alike {f f' : Field} (h : f.Kin f') : Alike f.toJson f'.toJson := by
  have before : Aligned f.beforeDefault f'.beforeDefault := by
    unfold beforeDefault
    rw [h.name, h.kind, h.type, h.array, h.required]
    exact ((((Aligned.refl _).append (aligned_nonNullEntry h.subtype)).append
      (aligned_nonNullEntry h.enum)).append (.refl _)).append (.refl _)
  have after : Aligned f.afterDefault f'.afterDefault := by
    unfold afterDefault
    rw [h.description]
    exact ((Aligned.refl _).append (aligned_freeEntry h.validations)).append
      (aligned_freeEntry h.extras)
  rw [toJson_eq, toJson_eq, nullDefault_eq h.default]
  exact (before.append ((aligned_defaultEntry h.default).append (after.append (.refl _)))).obj

/-- Models are written alike. -/
theorem Model.Kin.alike {m m' : Model} (h : m.Kin m') : Alike m.toJson m'.toJson := by
  have before : Aligned m.beforeDefault m'.beforeDefault := by
    unfold beforeDefault
    rw [h.name, h.kind, h.location, h.type, h.array]
    refine (Aligned.append ?_ (.refl _)).append (aligned_nonNullEntry h.enum)
    refine Aligned.append (((Aligned.append ?_ (.refl _))).append (.refl _))
      (aligned_nonNullEntry h.subtype)
    exact (Aligned.refl _).append (aligned_nonNullEntry h.source)
  have fields := alike_map (h.fields.imp fun _ _ => Field.Kin.alike)
  have after : Aligned m.afterDefault m'.afterDefault := by
    unfold afterDefault
    rw [h.description]
    refine (((Aligned.append ?_ (.entry fields)).append (aligned_branches h.allOf)).append
      (aligned_branches h.anyOf)).append (aligned_branches h.oneOf)
    refine Aligned.append ?_ (.entry (alike_map h.dependencies))
    exact ((Aligned.refl _).append (aligned_freeEntry h.validations)).append
      (aligned_freeEntry h.extras)
  rw [toJson_eq, toJson_eq, nullDefault_eq h.default]
  exact (before.append ((aligned_defaultEntry h.default).append (after.append (.refl _)))).obj

theorem Model.Kin.blank (name : String) (kind : Kind) :
    (Model.blank name kind).Kin (Model.blank name kind) where
  name := rfl
  kind := rfl
  source := .null
  location := rfl
  type := rfl
  subtype := .null
  array := rfl
  enum := .null
  default := .none
  description := rfl
  validations := .refl _
  extras := .refl _
  dependencies := .nil
  fields := .nil
  allOf := .none
  anyOf := .none
  oneOf := .none

namespace Link

theorem Alike.refl (l : Link Model) : l.Alike l := Json.Alike.refl _

namespace Kin

variable {l l' : Link Model}

theorem alike (h : l.Kin l') : l.Alike l' := by
  cases h with
  | ref r => exact .refl _
  | model h => exact h.alike

theorem name_eq (h : l.Kin l') : l.name = l'.name := by
  cases h with
  | ref r => rfl
  | model h => exact h.name

theorem kind_eq (h : l.Kin l') : l.kind = l'.kind := by
  cases h with
  | ref r => rfl
  | model h => exact h.kind

end Kin

end Link

/-- Operations are written alike. -/
theorem Method.Kin.alike {m m' : Method} (h : m.Kin m') : Alike m.toJson m'.toJson := by
  have security : Aligned (entry "security" (.arr (m.security.map requirementJson)))
      (entry "security" (.arr (m'.security.map requirementJson))) := .entry (alike_map h.security)
  rw [h.same]
  unfold Method.toJson
  refine Aligned.obj ?_
  iterate 9 refine Aligned.append ?_ (.refl _)
  exact (Aligned.refl _).append security

namespace Entity.Kin

variable {e e' : Entity}

theorem alike (h : e.Kin e') : Alike e.toJson e'.toJson := by
  cases h with
  | method h => exact h.alike
  | path p => exact .refl _
  | model h => exact h.alike
  | ref r => exact .refl _

theorem label_eq (h : e.Kin e') : e.label = e'.label := by
  cases h with
  | method h =>
    rw [label, h.same]
    rfl
  | path p => rfl
  | model h => exact h.name
  | ref r => rfl

end Entity.Kin

end ApiGraph
