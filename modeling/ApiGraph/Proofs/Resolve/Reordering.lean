import ApiGraph.Proofs.Resolve.Parallel
import ApiGraph.Resolve.Node

/-! Nodes that are the same but for the order of keys are resolved side by side. Forms refer to each
other through the resolvers that they are given; from resolvers that run side by side on such nodes
each form makes resolvers that do. -/

namespace ApiGraph

open Resolving

/-- What resolvers do with nodes that are the same but for the order of keys runs side by side. -/
def Resolver.Parallel (self self' : Resolver) : Prop :=
  ∀ (site : Site) (node node' : Json), Json.Kin false node node' →
    ApiGraph.Parallel Outcome.Kin (self site node) (self' site node')

/-- Models that are the same but for the order of keys, each with links that are written alike. -/
def Model.KinWith : Model × List (Link Model) → Model × List (Link Model) → Prop :=
  Both Model.Kin (List.Forall₂ Link.Alike)

variable {document document' node node' : Json} {walked : Bool} {scope : Scope} {site : Site}
  {self self' : Resolver} {m m' : Model}

theorem rel_getElem? {α β : Type} {R : α → β → Prop} {as : List α} {bs : List β}
    (h : List.Forall₂ R as bs) (i : Nat) : Option.Rel R as[i]? bs[i]? := by
  induction h generalizing i with
  | nil => exact .none
  | cons first _ ih =>
    cases i with
    | zero => exact .some first
    | succ i => exact ih i

namespace Pointer

theorem rel_item? {vs ws : List Json} (h : List.Forall₂ (Json.Kin false) vs ws) (i : Int) :
    Option.Rel (Json.Kin false) (item? vs i) (item? ws i) := by
  unfold item?
  rw [h.length_eq]
  split
  · exact rel_getElem? h _
  · split
    · exact rel_getElem? h _
    · exact .none

theorem rel_step (h : Json.Kin walked node node') (segment : String) :
    Option.Rel (Json.Kin false) (step node segment) (step node' segment) := by
  cases h with
  | arr length items =>
    unfold step
    dsimp only
    cases index? segment.toList with
    | none => exact .none
    | some i => exact rel_item? (Json.Kin.arr length items : Json.Kin false _ _).items i
  | obj order length values literal =>
    have found := (Json.Kin.obj order length values literal).get? segment
    exact Json.rel_imp found fun _ _ h => h.loosen
  | _ => exact .none

/-- A reference leads to targets that are the same but for the order of keys. -/
theorem rel_resolve (h : Json.Kin walked document document') (ref : String) :
    Option.Rel (Json.Kin false) (resolve document ref) (resolve document' ref) := by
  have steps (segments : List String) {v w : Json} (h : Json.Kin false v w) :
      Option.Rel (Json.Kin false) (segments.foldlM step v) (segments.foldlM step w) := by
    induction segments generalizing v w with
    | nil => exact .some h
    | cons segment rest ih =>
      have first := rel_step h segment
      rw [List.foldlM_cons, List.foldlM_cons]
      generalize step v segment = a at first
      generalize step w segment = b at first
      cases first with
      | none => exact .none
      | some h => exact ih h
  unfold resolve
  split
  · exact steps _ h.loosen
  · exact .none

end Pointer

namespace Schema

theorem declaredType_eq (h : Json.Kin walked node node') :
    declaredType node = declaredType node' := by
  unfold declaredType
  rw [h.get_literal (k := "type") (by decide)]

theorem isPrimitive_eq (h : Json.Kin walked node node') : isPrimitive node = isPrimitive node' := by
  rw [isPrimitive, isPrimitive, h.isObject_eq, h.has_eq, declaredType_eq h]

theorem formOf_eq (h : Json.Kin walked node node') (hint : Option Form) :
    formOf node hint = formOf node' hint := by
  unfold formOf
  rw [h.has_eq, h.has_eq, h.has_eq, h.get_literal (k := "type") (by decide)]

theorem isComposite_eq (h : Json.Kin walked node node') : isComposite node = isComposite node' := by
  rw [isComposite, isComposite, h.has_eq, funext h.has_eq]

end Schema

theorem descriptionOf_eq (h : Json.Kin walked node node') :
    descriptionOf node = descriptionOf node' :=
  Shape.withDefault_text_eq h "description"

theorem Dict.Kin.allowNull {d d' : Dict String Json} (h : d.Kin d') (nullable : Bool) :
    (Schema.allowNull nullable d).Kin (Schema.allowNull nullable d') := by
  unfold Schema.allowNull
  split
  · exact h.put _ (.bool true)
  · exact h

section

variable (hself : self.Parallel self') (h : Json.Kin walked node node')

theorem parallel_membersOf (h : Json.Kin true node node') :
    Parallel Json.Paired (membersOf node) (membersOf node') := by
  cases h with
  | obj order length values literal => exact .pure (Json.Kin.obj order length values literal).paired
  | _ => exact .stop _

section

variable (hdoc : Json.Kin false document document')
include hself hdoc

theorem parallel_followReference (ref : String) :
    Parallel Eq (followReference document self scope ref)
      (followReference document' self' scope ref) := by
  have found := Pointer.rel_resolve hdoc ref
  unfold followReference
  generalize Pointer.resolve document ref = a at found
  generalize Pointer.resolve document' ref = b at found
  cases found with
  | none => exact .stop _
  | @some target target' htarget =>
    refine Parallel.registry.bind fun r r' hr => ?_
    have name := hr.reserve_eq ref (pointerName ref)
    have reserved := hr.reserve ref (pointerName ref)
    generalize r.reserve ref (pointerName ref) = x at name reserved
    generalize r'.reserve ref (pointerName ref) = y at name reserved
    obtain ⟨given, s⟩ := x
    obtain rfl : given = y.1 := name
    refine (Parallel.setRegistry reserved).bind fun _ _ _ => ?_
    refine (hself _ _ _ htarget).bind fun out out' hout => ?_
    have hresult := hout.result
    generalize out.result = l at hresult
    generalize out'.result = l' at hresult
    cases hresult with
    | ref found =>
      refine .ite (fun _ => ?_) fun _ => .pure rfl
      refine Parallel.registry.bind fun r r' hr => ?_
      exact (Parallel.setRegistry (hr.redirect _ _)).bind fun _ _ _ => .pure rfl
    | model hm =>
      exact (Parallel.assert htarget (.model hm) _ _ _).bind fun _ _ hr => .pure hr.ref

include h in
theorem parallel_resolveReference :
    Parallel Eq (resolveReference document self scope node)
      (resolveReference document' self' scope node') := by
  unfold resolveReference
  rw [h.get?_literal (k := "$ref") (by decide), h.isObject_eq]
  split
  · refine .ite (fun _ => .pure rfl) fun _ => Parallel.registry.bind fun r r' hr => ?_
    rw [hr.lookupRef_eq]
    split
    · exact .pure rfl
    · exact parallel_followReference hself hdoc _
  · exact .malformed rfl rfl
  · exact .stop _

end

namespace Schema

omit hself in
include h in
theorem parallel_requiredNames : Parallel Eq (requiredNames node) (requiredNames node') := by
  have members := h.get "required"
  unfold requiredNames
  generalize node.get "required" = v at members
  generalize node'.get "required" = w at members
  cases members with
  | @arr _ vs ws length items =>
    have pairs := (Json.Kin.arr length items : Json.Kin false _ _).items
    have test {f : Json → Bool} (hf : ∀ v w, Json.Kin false v w → f v = f w) :
        vs.any f = ws.any f := Json.any_eq pairs hf
    dsimp only
    rw [test ?_, Json.filterMap_eq pairs fun _ _ h => h.text?_eq]
    · exact .ite (fun _ => .stop _) fun _ => .pure rfl
    · intro v w h
      cases h <;> rfl
  | _ => exact .pure rfl

omit hself in
include h in
theorem parallel_outline : Parallel Model.Kin (outline site node) (outline site node') := by
  unfold outline
  rw [descriptionOf_eq h, declaredType_eq h]
  refine (Parallel.fit (.of_eq rfl)).bind_eq fun description => .pure ?_
  refine { Model.Kin.blank site.name .schema with
    source := h.loosen
    location := rfl
    default := Json.rel_imp (h.get? "default") fun _ _ h => h.loosen
    description := rfl
    validations := (kin_validations h).allowNull _
    extras := kin_extras h }

include hself h in
theorem parallel_member (name : String) (required : List String) :
    Parallel Outcome.Kin (resolveMember self scope name required node)
      (resolveMember self' scope name required node') := by
  refine (Parallel.freeName rfl).bind_eq fun free => (hself _ _ _ h.loosen).bind ?_
  rintro ⟨l, needs⟩ ⟨l', needs'⟩ ⟨result, hneeds⟩
  cases result with
  | ref r => exact .pure ⟨.ref r, hneeds⟩
  | model hm => exact (Parallel.claim hm.name).bind fun _ _ _ => .pure ⟨.model hm, hneeds⟩


include hself h in
theorem parallel_array (hm : m.Kin m') : Parallel Model.KinWith (resolveArray self site node m)
    (resolveArray self' site node' m') := by
  have items := (h.get "items").nonNull
  unfold resolveArray
  generalize (node.get "items").nonNull = a at items
  generalize (node'.get "items").nonNull = b at items
  cases items with
  | none => exact .malformed (by rw [hm.name]) (by rw [hm.location])
  | some hitem =>
    refine (Parallel.freeName (by rw [hm.name])).bind_eq fun name => ?_
    refine (hself _ _ _ hitem.loosen).bind ?_
    rintro ⟨l, needs⟩ ⟨l', needs'⟩ ⟨result, hneeds⟩
    have depends := List.rel_append hneeds (.cons result.alike .nil)
    have model : Model.Kin { m with array := some true, type := some l.name }
        { m' with array := some true, type := some l'.name } :=
      { hm with array := rfl, type := congrArg some result.name_eq }
    cases result with
    | ref r => exact .pure ⟨model, depends⟩
    | model item =>
      dsimp only
      rw [item.type]
      refine .ite (fun _ => .pure ⟨?_, hneeds⟩) fun _ => ?_
      · refine { hm with array := rfl, type := rfl, subtype := item.subtype, enum := ?_ }
        dsimp only
        rw [item.enum.isNull_eq]
        split
        · exact hm.enum
        · exact item.enum
      · exact (Parallel.claim item.name).bind fun _ _ _ => .pure ⟨model, depends⟩

include hself h in
theorem parallel_mapValues (hm : m.Kin m') :
    Parallel Model.KinWith (resolveMapValues self site node m)
      (resolveMapValues self' site node' m') := by
  have values := h.get "additionalProperties"
  unfold resolveMapValues
  generalize node.get "additionalProperties" = v at values
  generalize node'.get "additionalProperties" = w at values
  cases values with
  | bool b =>
    cases b with
    | true => exact .pure ⟨{ hm with extras := hm.extras.put _ (.bool true) }, .nil⟩
    | false => exact .pure ⟨hm, .nil⟩
  | obj order length values literal =>
    have member := Json.Kin.obj order length values literal
    refine (parallel_member hself member _ _).bind fun out out' hout => .pure ⟨?_, ?_⟩
    rotate_left
    · exact List.rel_append hout.needs (.cons hout.result.alike .nil)
    refine { hm with extras := ?_ }
    dsimp only
    rw [hout.result.name_eq]
    exact hm.extras.put _ (.str _)
  | _ => exact .pure ⟨hm, .nil⟩

omit hself in
include h in
theorem kin_plain (hm : m.Kin m') : (resolvePlain node m).Kin (resolvePlain node' m') := by
  unfold resolvePlain
  rw [declaredType_eq h]
  split
  · exact hm
  · refine { hm with type := ?_, subtype := (h.get "format").loosen, enum := ?_ }
    · dsimp only
      split
      · exact hm.type
      · rfl
    · dsimp only
      rw [h.has_eq]
      split
      · exact (h.get "enum").loosen
      · exact hm.enum

omit hself in
include h in
theorem parallel_outlineField (name : String) :
    Parallel Field.Kin (outlineField name node) (outlineField name node') := by
  unfold outlineField
  rw [descriptionOf_eq h, declaredType_eq h]
  refine (Parallel.fit (.of_eq ?_)).bind_eq fun start => .pure ?_
  · have format := h.get "format"
    generalize node.get "format" = v at format
    generalize node'.get "format" = w at format
    cases format <;> rfl
  exact {
    name := rfl
    kind := rfl
    type := rfl
    subtype := .refl _
    enum := .null
    array := rfl
    required := rfl
    default := Json.rel_imp (h.get? "default") fun _ _ h => h.loosen
    description := rfl
    validations := .refl _
    extras := .refl _ }


/-- Members that are the same but for the order of keys, each with links that are written alike. -/
def FieldWith : Field × List (Link Model) → Field × List (Link Model) → Prop :=
  Both Field.Kin (List.Forall₂ Link.Alike)

section

variable (hdoc : Json.Kin false document document')
include hself h hdoc

theorem parallel_fieldType (parent : String) {f f' : Field} (hf : f.Kin f') :
    Parallel FieldWith (resolveFieldType document self scope parent node f)
      (resolveFieldType document' self' scope parent node' f') := by
  have items := (h.get "items").loosen
  unfold resolveFieldType
  dsimp only
  rw [h.has_eq "$ref", h.has_eq "enum", isPrimitive_eq items, items.has_eq, declaredType_eq items,
    hf.type]
  refine .ite (fun _ => ?_) fun _ => .ite (fun _ => .pure ⟨?_, .nil⟩) fun _ => .ite (fun _ => ?_) ?_
  · refine (parallel_resolveReference hself h hdoc).bind_eq fun ref => .pure ⟨?_, ?_⟩
    · exact { hf with type := rfl, subtype := .str _, kind := rfl }
    · exact .cons (.refl _) .nil
  · refine { hf with type := rfl, subtype := (items.get "format").loosen, enum := ?_ }
    dsimp only
    split
    · exact (items.get "enum").loosen
    · exact hf.enum
  · have target : Option.Rel (Json.Kin false)
        (if f'.type = some "array" then (node.get "items").nonNull else some node)
        (if f'.type = some "array" then (node'.get "items").nonNull else some node') := by
      split
      · exact items.nonNull
      · exact .some h.loosen
    generalize (if f'.type = some "array" then (node.get "items").nonNull else some node) = a
      at target
    generalize (if f'.type = some "array" then (node'.get "items").nonNull else some node') = b
      at target
    cases target with
    | none => exact .malformed (by rw [hf.name]) rfl
    | some target =>
      rw [hf.name]
      refine (parallel_member hself target _ _).bind fun out out' hout => .pure ⟨?_, ?_⟩
      · exact { hf with
          name := rfl
          type := congrArg some hout.result.name_eq
          kind := hout.result.kind_eq
          subtype := .str _ }
      · exact List.rel_append hout.needs (.cons hout.result.alike .nil)
  · exact fun _ => .pure ⟨hf, .nil⟩

theorem parallel_field (parent : String) (required : List String) (name : String) :
    Parallel FieldWith (resolveField document self scope parent required name node)
      (resolveField document' self' scope parent required name node') := by
  unfold resolveField
  rw [h.isObject_eq]
  refine .ite (fun _ => .malformed_bind rfl) fun _ => ?_
  refine (parallel_outlineField h name).bind fun start start' hstart => ?_
  refine (parallel_fieldType hself h hdoc parent hstart).bind ?_
  rintro ⟨f, needs⟩ ⟨f', needs'⟩ ⟨hf, hneeds⟩
  replace hf : f.Kin f' := hf
  dsimp only
  rw [declaredType_eq h, h.has_eq, h.has_eq, hf.array]
  have keywords : (if node'.has "$ref" = true then ⟨[], []⟩ else keywords node).validations.Kin
      (if node'.has "$ref" = true then ⟨[], []⟩ else keywords node').validations ∧
      (if node'.has "$ref" = true then ⟨[], []⟩ else keywords node).extras.Kin
      (if node'.has "$ref" = true then ⟨[], []⟩ else keywords node').extras := by
    split
    · exact ⟨.refl _, .refl _⟩
    · exact ⟨kin_validations h, kin_extras h⟩
  refine .pure ⟨{ hf with
    array := rfl
    enum := ?_
    required := rfl
    validations := ?_
    extras := keywords.2 }, hneeds⟩
  · dsimp only
    split
    · exact (h.get "enum").loosen
    · exact hf.enum
  · have nullable := keywords.1.allowNull (declaredType node').2
    dsimp only
    split
    · exact nullable.put _ (.bool true)
    · exact nullable

omit h in
theorem parallel_fields (parent : String) (required : List String) {ds es : List (String × Json)}
    (paired : Json.Paired ds es) :
    Parallel (Both (List.Forall₂ Field.Kin) (List.Forall₂ Link.Alike))
      (resolveFields document self scope parent required ds)
      (resolveFields document' self' scope parent required es) := by
  induction paired with
  | nil => exact .pure ⟨.nil, .nil⟩
  | @cons d e ds es first _ ih =>
    obtain ⟨name, prop⟩ := d
    obtain ⟨_, prop'⟩ := e
    obtain ⟨rfl, hprop⟩ : name = _ ∧ Json.Kin false prop prop' := first
    refine (parallel_field hself hprop hdoc parent required name).bind fun x y hxy => ?_
    exact ih.bind fun _ _ hmore => .pure ⟨.cons hxy.1 hmore.1, List.rel_append hxy.2 hmore.2⟩

theorem parallel_properties (required : List String) (hm : m.Kin m') :
    Parallel (Both (List.Forall₂ Field.Kin) (List.Forall₂ Link.Alike))
      (resolveProperties document self site required node m)
      (resolveProperties document' self' site required node' m') := by
  have properties := h.walk (k := "properties") (by decide)
  unfold resolveProperties
  dsimp only
  rw [properties.truthy_eq, hm.name, hm.location]
  refine .ite (fun _ => .pure ⟨.nil, .nil⟩) fun _ => ?_
  generalize node.get "properties" = v at properties
  generalize node'.get "properties" = w at properties
  cases properties with
  | obj order length values literal =>
    exact parallel_fields hself hdoc _ _ (Json.Kin.obj order length values literal).paired
  | _ => exact .malformed rfl rfl

omit h hdoc in
theorem parallel_branches (key name : String) (required : List String) (i : Nat) {vs ws : List Json}
    (pairs : List.Forall₂ (Json.Kin false) vs ws) :
    Parallel (Both (List.Forall₂ Link.Alike) (List.Forall₂ Link.Alike))
      (resolveBranches self scope key name required i vs)
      (resolveBranches self' scope key name required i ws) := by
  induction pairs generalizing i with
  | nil => exact .pure ⟨.nil, .nil⟩
  | cons first _ ih =>
    refine (parallel_member hself first _ _).bind ?_
    rintro ⟨l, needs⟩ ⟨l', needs'⟩ ⟨result, hneeds⟩
    refine (ih _).bind fun _ _ hmore => .pure ⟨.cons result.alike hmore.1, ?_⟩
    refine List.rel_append ?_ hmore.2
    cases result with
    | ref r => exact List.rel_append hneeds (.cons (.refl _) .nil)
    | model _ => exact hneeds

omit hdoc in
theorem parallel_combinator (required : List String) (hm : m.Kin m') (key label : String) :
    Parallel (Both (Option.Rel (List.Forall₂ Link.Alike)) (List.Forall₂ Link.Alike))
      (resolveCombinator self site required node m key label)
      (resolveCombinator self' site required node' m' key label) := by
  have branches := (h.get key).loosen
  unfold resolveCombinator
  rw [hm.name, hm.location]
  generalize node.get key = v at branches
  generalize node'.get key = w at branches
  cases branches with
  | null => exact .pure ⟨.none, .nil⟩
  | arr length items =>
    have pairs := (Json.Kin.arr length items : Json.Kin false _ _).items
    refine (parallel_branches hself key _ required 0 pairs).bind fun _ _ hb => ?_
    exact .pure ⟨.some hb.1, hb.2⟩
  | _ => exact .malformed rfl rfl

theorem parallel_composite (hm : m.Kin m') :
    Parallel Model.KinWith (resolveComposite document self site node m)
      (resolveComposite document' self' site node' m') := by
  refine (parallel_requiredNames h).bind_eq fun required => ?_
  refine (parallel_properties hself h hdoc _ hm).bind fun fields _ hfields => ?_
  refine (parallel_combinator hself h _ hm _ _).bind fun allOf _ hall => ?_
  refine (parallel_combinator hself h _ hm _ _).bind fun anyOf _ hany => ?_
  refine (parallel_combinator hself h _ hm _ _).bind fun oneOf _ hone => .pure ⟨?_, ?_⟩
  · exact { hm with fields := hfields.1, allOf := hall.1, anyOf := hany.1, oneOf := hone.1 }
  · exact List.rel_append (List.rel_append (List.rel_append hfields.2 hall.2) hany.2) hone.2

theorem parallel_parts (hm : m.Kin m') :
    Parallel Model.KinWith (resolveParts document self site node m)
      (resolveParts document' self' site node' m') := by
  unfold resolveParts
  rw [declaredType_eq h, isComposite_eq h]
  refine .ite (fun _ => parallel_array hself h hm) fun _ => ?_
  refine (parallel_mapValues hself h hm).bind fun x y hxy => ?_
  refine .ite (fun _ => ?_) fun _ => .pure ⟨kin_plain h hxy.1, hxy.2⟩
  refine (parallel_composite hself h hdoc hxy.1).bind fun _ _ hmore => ?_
  exact .pure ⟨hmore.1, List.rel_append hxy.2 hmore.2⟩

theorem parallel_resolve : Parallel Outcome.Kin (resolve document self site node)
    (resolve document' self' site node') := by
  refine Parallel.registry.bind fun r r' hr => ?_
  rw [hr.findStructural_eq h.canonical_eq]
  split
  · exact .pure ⟨.ref _, .nil⟩
  · refine (parallel_outline h).bind fun _ _ hm => ?_
    refine (parallel_parts hself h hdoc hm).bind fun x y hxy => ?_
    refine .ite (fun _ => .pure ⟨.model ?_, .nil⟩) fun _ => .pure ⟨.model hxy.1, hxy.2⟩
    exact { hxy.1 with dependencies := hxy.2 }

end

end Schema

namespace Parameter

omit hself in
include h in
theorem parallel_placeOf : Parallel Eq (placeOf scope node) (placeOf scope node') := by
  unfold placeOf
  rw [h.isObject_eq, h.get_literal (k := "in") (by decide), h.get_literal (k := "name") (by decide)]
  refine .ite (fun _ => .stop_bind _) fun _ => ?_
  split
  · exact .pure rfl
  · exact .malformed rfl rfl

omit hself in
include h in
theorem parallel_mediaOf :
    Parallel (List.Forall₂ (Json.Kin false)) (mediaOf node) (mediaOf node') := by
  have content := h.walk (k := "content") (by decide)
  unfold mediaOf
  dsimp only
  rw [content.truthy_eq]
  refine .ite (fun _ => ?_) fun _ => .pure .nil
  refine (parallel_membersOf content).bind fun _ _ paired => .pure ?_
  rw [List.forall₂_map_left_iff, List.forall₂_map_right_iff]
  exact paired.imp fun _ _ h => h.2

omit hself in
include h in
theorem parallel_schemaOf :
    Parallel (Option.Rel (Json.Kin false)) (schemaOf node) (schemaOf node') := by
  have first {vs ws : List Json} (h : List.Forall₂ (Json.Kin false) vs ws) :
      Option.Rel (Json.Kin false) ((vs.map (·.get "schema")).find? Json.isObject)
        ((ws.map (·.get "schema")).find? Json.isObject) := by
    induction h with
    | nil => exact .none
    | cons first _ ih =>
      have schema := (first.get "schema").loosen
      rw [List.map_cons, List.map_cons, List.find?_cons, List.find?_cons, schema.isObject_eq]
      split
      · exact .some schema
      · exact ih
  have media : Parallel (Option.Rel (Json.Kin false)) (do
      return ((← mediaOf node).map (·.get "schema")).find? Json.isObject) (do
      return ((← mediaOf node').map (·.get "schema")).find? Json.isObject) :=
    (parallel_mediaOf h).bind fun _ _ hvs => .pure (first hvs)
  have schema := (h.get "schema").loosen
  unfold schemaOf
  rw [h.isObject_eq]
  refine .ite (fun _ => .stop_bind _) fun _ => ?_
  generalize node.get "schema" = v at schema
  generalize node'.get "schema" = w at schema
  cases schema with
  | obj order length values literal => exact .pure (.some (.obj order length values literal))
  | _ => exact media

omit hself in
theorem isObjectShaped_eq (hm : m.Kin m') : isObjectShaped m = isObjectShaped m' := by
  have fields : m.fields.isEmpty = m'.fields.isEmpty := by
    have fields := hm.fields
    generalize m.fields = fs at fields
    generalize m'.fields = fs' at fields
    cases fields <;> rfl
  rw [isObjectShaped, isObjectShaped, hm.array, fields, Json.isSome_eq hm.allOf,
    Json.isSome_eq hm.anyOf, Json.isSome_eq hm.oneOf, hm.extras.has_eq]

omit hself in
theorem kin_refersTo (hm : m.Kin m') (ref : Ref) : (refersTo m ref).Kin (refersTo m' ref) :=
  { hm with type := rfl, subtype := .str _, dependencies := .cons (.refl _) .nil }

omit hself in
theorem kin_takesOver (hm : m.Kin m') {parsed parsed' : Model} (hp : parsed.Kin parsed') :
    (takesOver m parsed).Kin (takesOver m' parsed') :=
  { hm with
    type := hp.type
    subtype := hp.subtype
    array := hp.array
    enum := hp.enum
    default := hp.default
    validations := hp.validations
    extras := hp.extras
    dependencies := hp.dependencies }

include hself in
theorem parallel_values {schema schema' : Option Json}
    (hs : Option.Rel (Json.Kin false) schema schema') (hm : m.Kin m') :
    Parallel Model.Kin (resolveValues self scope schema m)
      (resolveValues self' scope schema' m') := by
  cases hs with
  | none => exact .pure hm
  | some schema =>
    unfold resolveValues
    rw [hm.name]
    refine (hself _ _ _ schema).bind ?_
    rintro ⟨l, needs⟩ ⟨l', needs'⟩ ⟨result, hneeds⟩
    cases result with
    | ref r => exact .pure (kin_refersTo hm r)
    | @model parsed parsed' hp =>
      dsimp only
      rw [isObjectShaped_eq hp]
      refine .ite (fun _ => ?_) fun _ => .pure (kin_takesOver hm hp)
      refine (Parallel.assert schema (.model hp) _ _ _).bind fun resolved _ hr => ?_
      rw [hr.ref]
      exact .pure (kin_refersTo hm _)

omit hself in
include h in
theorem parallel_nameFor (given : String) (place : ParameterPlace) :
    Parallel Eq (nameFor given place node) (nameFor given place node') := by
  unfold nameFor
  rw [h.get?_literal (k := "name") (by decide)]
  refine .ite (fun _ => .pure rfl) fun _ => ?_
  split
  · exact .pure rfl
  · exact .stop _

include hself h in
theorem parallel_resolve (given : String) :
    Parallel Model.Kin (resolve self scope given node) (resolve self' scope given node') := by
  refine (parallel_placeOf h).bind_eq fun place => (parallel_nameFor h _ _).bind_eq fun name => ?_
  rw [descriptionOf_eq h, (h.get "required").truthy_eq]
  refine (Parallel.fit (.of_eq rfl)).bind_eq fun description => ?_
  refine (parallel_schemaOf h).bind fun _ _ hs => ?_
  refine (parallel_values hself hs ?_).bind fun _ _ hm => ?_
  · exact { Model.Kin.blank name place.kind with
      source := h.loosen, location := rfl, description := rfl }
  · refine .ite (fun _ => .pure ?_) fun _ => .pure hm
    exact { hm with validations := hm.validations.put _ (.bool true) }

end Parameter

namespace Header

theorem kin_asParameter {ds es : List (String × Json)} (h : Json.Kin walked (.obj ds) (.obj es))
    (name : String) : Json.Kin false (asParameter name ds) (asParameter name es) :=
  (h.put (.str name)).put _

section

variable (hdoc : Json.Kin false document document')
include hself hdoc

include h in
theorem parallel_resolve (name : String) :
    Parallel Eq (resolve document self scope name node)
      (resolve document' self' scope name node') := by
  cases h with
  | obj order length values literal =>
    have h := Json.Kin.obj order length values literal
    unfold resolve
    dsimp only
    rw [h.has_eq]
    refine .ite (fun _ => parallel_resolveReference hself h hdoc) fun _ => ?_
    have header := kin_asParameter h name
    refine (Parameter.parallel_resolve hself header "").bind fun _ _ hm => ?_
    exact (Parallel.assert header (.model hm) _ _ _).bind fun _ _ hr => .pure hr.ref
  | _ => exact .malformed rfl rfl

theorem parallel_each {ds es : List (String × Json)} (paired : Json.Paired ds es) :
    Parallel Eq (resolveEach document self scope ds) (resolveEach document' self' scope es) := by
  induction paired with
  | nil => exact .pure rfl
  | @cons d e ds es first _ ih =>
    obtain ⟨name, node⟩ := d
    obtain ⟨_, node'⟩ := e
    obtain ⟨rfl, hn⟩ : name = _ ∧ Json.Kin false node node' := first
    exact (parallel_resolve hself hn hdoc name).bind_eq fun _ => ih.bind_eq fun _ => .pure rfl

theorem parallel_all {headers headers' : Json} (h : Json.Kin true headers headers') :
    Parallel Eq (resolveAll document self scope headers)
      (resolveAll document' self' scope headers') := by
  unfold resolveAll
  rw [h.truthy_eq]
  refine .ite (fun _ => .pure rfl) fun _ => ?_
  cases h with
  | obj order length values literal =>
    exact parallel_each hself hdoc (Json.Kin.obj order length values literal).paired
  | _ => exact .malformed rfl rfl

include h in
theorem parallel_holder (kind : Kind) (name : String) :
    Parallel Model.Kin (resolveHolder document self scope kind name node)
      (resolveHolder document' self' scope kind name node') := by
  unfold resolveHolder
  dsimp only
  rw [descriptionOf_eq h, (h.get "required").truthy_eq]
  refine (Parallel.fit (.of_eq rfl)).bind_eq fun description => ?_
  refine (parallel_all hself hdoc (h.walk (by decide))).bind_eq fun headers => .pure ?_
  exact { Model.Kin.blank name kind with
    source := h.loosen
    location := rfl
    description := rfl
    validations := .refl _
    extras := .refl _ }

end

end Header

omit hself in
include h in
theorem parallel_securityScheme (given : String) :
    Parallel Model.Kin (resolveSecurityScheme scope given node)
      (resolveSecurityScheme scope given node') := by
  unfold resolveSecurityScheme
  rw [h.get?_literal (k := "type") (by decide), h.isObject_eq, descriptionOf_eq h]
  split
  · exact .stop _
  next type _ =>
  have name : Parallel Eq (securitySchemeName given type) (securitySchemeName given type) := by
    unfold securitySchemeName
    refine .ite (fun _ => .pure rfl) fun _ => ?_
    split
    · exact .pure rfl
    · exact .stop _
    · exact .stop _
  refine name.bind_eq fun name => (Parallel.fit (.of_eq rfl)).bind_eq fun read => .pure ?_
  exact { Model.Kin.blank name .securityScheme with
    source := h.loosen, location := rfl, type := rfl, description := rfl }

include hself in
/-- A form makes resolvers that run side by side from resolvers that do. -/
theorem parallel_resolveForm (hdoc : Json.Kin false document document') :
    (resolveForm document self).Parallel (resolveForm document' self') := by
  intro site node node' h
  have own {m m' : Resolving Model} (hm : Parallel Model.Kin m m') :
      Parallel Outcome.Kin (do return .own (← m)) (do return .own (← m')) :=
    hm.bind fun _ _ hm => .pure ⟨.model hm, .nil⟩
  unfold resolveForm
  rw [h.isObject_eq, h.typeName_eq, Schema.formOf_eq h]
  refine .ite (fun _ => .malformed_bind rfl) fun _ => ?_
  split
  · exact (parallel_resolveReference hself h hdoc).bind_eq fun _ => .pure ⟨.ref _, .nil⟩
  · exact own (parallel_securityScheme h _)
  · exact own (Parameter.parallel_resolve hself h _)
  · exact own (Header.parallel_holder hself h hdoc _ _)
  · exact own (Header.parallel_holder hself h hdoc _ _)
  · exact Schema.parallel_resolve hself h hdoc

end

/-- Nodes that are the same but for the order of keys are resolved side by side. -/
theorem parallel_resolveNode (hdoc : Json.Kin walked document document') :
    (resolveNode document).Parallel (resolveNode document') := by
  have within (depth : Nat) :
      (resolveWithin document depth).Parallel (resolveWithin document' depth) := by
    induction depth with
    | zero => exact fun _ _ _ _ => .stop _
    | succ depth ih => exact parallel_resolveForm ih hdoc.loosen
  intro site node node' h
  unfold resolveNode depthBound
  rw [hdoc.size_eq, h.size_eq]
  exact within _ site node node' h

end ApiGraph
