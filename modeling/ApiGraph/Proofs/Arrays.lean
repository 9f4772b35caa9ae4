import ApiGraph.Proofs.Resolve.Carrying
import ApiGraph.Proofs.Resolve.Inline
import ApiGraph.Proofs.Resolve.Traversal

/-! Arrays keep their items. An array stands in a schema, in a property or in a payload, and each of
the three takes over the type of primitive items and depends on all others. A schema asks whether
the model that its items were resolved into has a primitive type, while the other two ask the items
themselves, so that an array of arrays may take over a type from further down. -/

namespace ApiGraph

open Resolving

/-- Models have the names that they were resolved under. -/
def naming (document : Json) : Traversal document where
  node site _ _ out _ := ∀ m, out.result = .model m → site.name ≠ "" → m.name = site.name
  parts _ _ _ _ _ := True
  handle _ _ _ _ := True
  nothing := trivial
  append _ _ := trivial
  weaken _ _ _ := trivial
  member _ _ _ := trivial
  item _ _ := trivial
  reference _ := trivial
  inner _ _ _ _ := trivial
  content _ _ _ _ _ _ _ := trivial
  gathered _ _ _ _ _ _ _ := trivial
  model _ _ _ _ titled _ _ _ _ _ _ _ := fun _ hm => Link.model.inj hm ▸ titled.eq
  refers _ _ := nofun
  known _ _ _ := nofun
  remote _ := trivial
  declared _ _ := trivial
  followed _ _ _ _ _ := trivial
  registered _ _ _ _ _ _ := trivial

variable {document node items v : Json} {self : Resolver} {scope : Scope} {site : Site}
  {p q : Progress} {name parent : String} {required : List String} {m : Model} {out : Outcome}
  {f : Field} {needs : List (Link Model)}

namespace Schema

/-- What is read of an array: the type of its items, that it is an array, and what it depends on
because of them. -/
structure Reading where
  type : Option String
  array : Option Bool
  needs : List (Link Model)

/-- The reading of an array that takes over its items. -/
def Reading.taken (items : Json) : Reading := ⟨(declaredType items).1, some true, []⟩

/-- The reading of an array that depends on what its items were resolved into. -/
def Reading.dependent (out : Outcome) : Reading :=
  ⟨some out.result.name, some true, out.needs ++ [out.result]⟩

/-- Whether items are a primitive schema and nothing beside. -/
def isBare (items : Json) : Bool :=
  isPrimitive items && formOf items none = .schema && !items.has "additionalProperties" &&
    !isComposite items

/-- Items whose model may have a primitive type: a primitive schema without properties, an array of
such items, and whatever reads as a parameter. -/
inductive Lends : Json → Prop where
  | primitive {items : Json} : isPrimitive items = true → isComposite items = false → Lends items
  | array {items : Json} : (declaredType items).1 = some "array" → Lends (items.get "items") →
    Lends items
  | parameter {items : Json} : formOf items none = .parameter → Lends items

/-- The handle that a node at a site is answered with because its content is registered. -/
def known (site : Site) (r : Registry) (node : Json) : Option Ref :=
  if site.scope.space = .structural then r.findStructural node else none

/-- The site of the items of an array. -/
def itemSite (site : Site) (r : Registry) : Site :=
  ⟨site.scope.down ["items"], r.freeName (site.name ++ "Items"), [], false, none⟩

theorem outline_blank (h : Runs (outline site node) p m q) :
    m.type = none ∧ m.subtype = .null ∧ m.enum = .null ∧ m.array = none := by
  simp only [outline, runs_bind, runs_fit, runs_pure] at h
  obtain ⟨_, _, -, rfl, -⟩ := h
  exact ⟨rfl, rfl, rfl, rfl⟩

theorem outlineField_enum (h : Runs (outlineField name node) p f q) : f.enum = .null := by
  simp only [outlineField, runs_bind, runs_fit, runs_pure] at h
  obtain ⟨_, _, -, rfl, -⟩ := h
  rfl

theorem resolvePlain_of_primitive (typed : isPrimitiveType (declaredType v).1 = true) (m : Model) :
    resolvePlain v m = { m with
      type := (declaredType v).1
      subtype := v.get "format"
      enum := if v.has "enum" then v.get "enum" else m.enum } := by
  obtain ⟨word, -, declared⟩ := isPrimitiveType_iff.1 typed
  have word_ne : word ≠ "object" := by
    rintro rfl
    rw [declared] at typed
    cases typed
  rw [resolvePlain, declared]
  dsimp only
  rw [if_neg word_ne]

/-- A primitive schema without properties and values of its own has the primitive type. -/
theorem resolve_bare (h : Runs (resolve document self site items) p out q)
    (bare : isBare items = true) (owned : site.owner = false)
    (unknown : known site p.registry items = none) :
    ∃ m, out = ⟨.model m, []⟩ ∧ m.type = (declaredType items).1 ∧ m.subtype = items.get "format" ∧
      m.enum = items.get "enum" := by
  simp only [isBare, Bool.and_eq_true, decide_eq_true_eq, Bool.not_eq_true'] at bare
  obtain ⟨⟨⟨primitive, -⟩, closed⟩, simple⟩ := bare
  have typed : isPrimitiveType (declaredType items).1 = true := by
    rw [isPrimitive, Bool.and_eq_true] at primitive
    exact primitive.2
  obtain ⟨ref, structural, found, -⟩ | ⟨start, m, needs, ho, hp, rfl⟩ := resolve_runs h
  · rw [known, if_pos structural, found] at unknown
    cases unknown
  obtain ⟨type, subtype, enum, -⟩ := outline_blank ho
  obtain ⟨ha, -⟩ | ⟨-, mid, hd, s, hm, hc⟩ := resolveParts_runs hp
  · rw [ha] at typed
    cases typed
  obtain ⟨_, -, object, -⟩ | ⟨-, rfl, ⟨extra, -⟩ | ⟨-, rfl⟩⟩ := resolveMapValues_runs hm
  · rw [Json.get_of_has closed] at object
    cases object
  · rw [Json.get_of_has closed] at extra
    cases extra
  obtain ⟨composite, -⟩ | ⟨-, -, rfl, rfl⟩ := hc
  · rw [simple] at composite
    cases composite
  refine ⟨_, by rw [owned]; rfl, ?_⟩
  rw [resolvePlain_of_primitive typed]
  refine ⟨rfl, rfl, ?_⟩
  dsimp only
  cases he : items.has "enum" with
  | true => rfl
  | false => exact enum.trans (Json.get_of_has he).symm

theorem isPrimitiveType_of_security {hint : Option Form} (h : formOf v hint = .securityScheme) :
    isPrimitiveType (v.get "type").text? = false := by
  obtain ⟨word, text, mem⟩ := Schema.securityType_of_formOf h
  have apart : ∀ word ∈ securityTypes, isPrimitiveType (some word) = false := by decide
  rw [Json.get, text]
  exact apart word (by simpa using mem)

/-- No name that the items of an array are resolved under is the word for a primitive type. -/
theorem isPrimitiveType_freeName (r : Registry) (name : String) :
    isPrimitiveType (some (r.freeName (name ++ "Items"))) = false := by
  have capital : 'I' ∈ (r.freeName (name ++ "Items")).toList := by
    refine (Registry.prefix_freeVariant r.taken (name ++ "Items")).subset ?_
    rw [String.toList_append]
    exact List.mem_append_right _ (by decide)
  have small : ∀ word ∈ primitiveTypes, 'I' ∉ word.toList := by decide
  rw [isPrimitiveType, Option.any_some, List.contains_eq_mem, decide_eq_false_iff_not]
  exact fun hw => small _ hw capital

/-- The name of a schema's items is not empty. -/
theorem freeName_items_ne (r : Registry) (name : String) : r.freeName (name ++ "Items") ≠ "" := by
  intro he
  have := (Registry.prefix_freeVariant r.taken (name ++ "Items")).length_le
  rw [← Registry.freeName, he, String.toList_append, List.length_append] at this
  simp at this

/-- Only items that lend it pass a primitive type on to an array, unless a handle among what they
need has a primitive type as its name. The induction is on the depth, through nested arrays. -/
theorem lends_of_isPrimitiveType (depth : Nat)
    (h : Runs (resolveWithin document depth site items) p out q) (hint : site.hint = none)
    (owned : site.owner = false) (model : out.result = .model m)
    (primitive : isPrimitiveType m.type = true)
    (names : ∀ r, .ref r ∈ out.needs → isPrimitiveType (some r.name) = false) : Lends items := by
  induction depth generalizing site items p out q m with
  | zero => exact (runs_fail.1 h).elim
  | succ depth ih =>
    obtain ⟨object, ⟨-, ref, -, rfl⟩ | ⟨form, k, hk, rfl⟩ | ⟨form, -⟩ | ⟨holder, -⟩ | ⟨form, hs⟩⟩ :=
      resolveForm_runs h
    · cases model
    · obtain rfl := Link.model.inj model
      obtain ⟨_, description, -, rfl⟩ := resolveSecurityScheme_cases hk
      dsimp only at primitive
      rw [isPrimitiveType_of_security form] at primitive
      cases primitive
    · exact .parameter (hint ▸ form)
    · rw [hint] at holder
      obtain holder | holder := holder <;> cases holder
    have plain := Schema.plain_of_formOf form nofun
    obtain ⟨ref, -, -, -, rfl⟩ | ⟨start, k, needs, ho, hp, rfl⟩ := resolve_runs hs
    · cases model
    rw [owned] at model names
    obtain rfl := Link.model.inj model
    obtain ⟨blank, -⟩ := outline_blank ho
    obtain ⟨array, ha⟩ | ⟨-, mid, hd, s, hm, hc⟩ := resolveParts_runs hp
    · obtain ⟨inner, below, s, nonNull, hi, ⟨item, hitem, typed, -, rfl, rfl⟩ | ⟨-, -, rfl, rfl⟩⟩ :=
        resolveArray_runs ha
      · obtain rfl := Json.eq_of_nonNull nonNull
        exact .array array (ih hi rfl rfl hitem typed names)
      · cases hr : below.result with
        | ref r =>
          have := names r (by simp [hr])
          rw [hr] at primitive
          cases primitive.symm.trans this
        | model item =>
          have named := Traversal.sound_resolveWithin (naming document) depth
            (Site.isOpen_of_hint rfl) hi item hr (freeName_items_ne _ _)
          rw [hr] at primitive
          rw [Link.name, named, isPrimitiveType_freeName] at primitive
          cases primitive
    · have midType : mid.type = none := by
        obtain ⟨_, -, -, -, rfl⟩ | ⟨-, -, ⟨-, rfl⟩ | ⟨-, rfl⟩⟩ := resolveMapValues_runs hm
        all_goals exact blank
      obtain ⟨-, tl, hcomp, -⟩ | ⟨simple, -, -, rfl⟩ := hc
      · obtain ⟨_, _, _, _, _, _, _, _, _, _, _, _, -, -, -, -, -, rfl, -⟩ :=
          resolveComposite_runs hcomp
        rw [midType] at primitive
        cases primitive
      · obtain ⟨type, _, _, eq, declared⟩ := resolvePlain_eq items mid
        rw [eq] at primitive
        obtain ⟨word, -, typed⟩ := isPrimitiveType_iff.1 primitive
        refine .primitive ?_ simple
        rw [typed] at primitive
        rw [isPrimitive, object, plain, declared midType typed]
        exact primitive

/-- What is read of a model of an array with some dependencies. -/
def Reading.ofModel (m : Model) (needs : List (Link Model)) : Reading := ⟨m.type, m.array, needs⟩

/-- What is read of a field of an array with what it needs. -/
def Reading.ofField (f : Field) (needs : List (Link Model)) : Reading := ⟨f.type, f.array, needs⟩

/-- What is read of a payload of an array. -/
def Reading.ofPayload (payload : Payload) : Reading :=
  ⟨payload.type, payload.array, payload.ref.toList.map .ref⟩

/-- A node with the form of a schema is resolved as one. -/
theorem resolve_of_form (h : Runs (resolveNode document site node) p out q)
    (form : formOf node site.hint = .schema) :
    ∃ depth, Runs (resolve document (resolveWithin document depth) site node) p out q := by
  obtain ⟨depth, h⟩ := resolveNode_runs h
  exact ⟨depth, resolveForm_schema h form⟩

/-- What a model of an array says of its items and of what it needs because of them. Bare items that
were not known are taken over, and nothing is needed. Items that were known, and those that lend no
primitive type, are what the array is of, and they are needed. -/
structure KeepsItems (m : Model) (needs : List (Link Model)) (items : Json) (known : Option Ref)
    (out : Outcome) : Prop where
  isArray : m.array = some true
  taken : isBare items = true → known = none → Reading.ofModel m needs = .taken items ∧
    m.subtype = items.get "format" ∧ m.enum = items.get "enum"
  dependent : (∃ r, out.result = .ref r) ∨
      (¬ Lends items ∧ ∀ r, .ref r ∈ out.needs → isPrimitiveType (some r.name) = false) →
    Reading.ofModel m needs = .dependent out

/-- A schema of an array resolves its items under a name after its own, and keeps them. -/
theorem resolveNode_array (h : Runs (resolveNode document site node) p ⟨.model m, needs⟩ q)
    (form : formOf node site.hint = .schema) (array : (declaredType node).1 = some "array") :
    ∃ items out s, (node.get "items").nonNull = some items ∧
      Runs (resolveNode document (itemSite site p.registry) items) p out s ∧
      KeepsItems m (if site.owner then m.dependencies else needs) items
        (known site p.registry items) out := by
  obtain ⟨depth, h⟩ := resolve_of_form h form
  obtain ⟨ref, -, -, -, he⟩ | ⟨start, k, deps, ho, hp, he⟩ := resolve_runs h
  · cases he
  have same : (m.type = k.type ∧ m.array = k.array ∧ m.subtype = k.subtype ∧ m.enum = k.enum) ∧
      (if site.owner then m.dependencies else needs) = deps := by
    cases owned : site.owner <;> rw [owned] at he <;> cases he <;> simp
  obtain ⟨⟨type, isArray, subtype, enum⟩, hdeps⟩ := same
  obtain ⟨-, ha⟩ | ⟨hn, -⟩ := resolveParts_runs hp
  · obtain ⟨-, named, -⟩ := outline_runs ho
    obtain ⟨-, -, noEnum, -⟩ := outline_blank ho
    obtain ⟨items, out, s, nonNull, hi, hc⟩ := resolveArray_runs ha
    rw [named] at hi
    have hn := resolveNode_of_within hi
    refine ⟨items, out, s, nonNull, hn, ?_, fun bare unknown => ?_, fun stands => ?_⟩
    · rcases hc with ⟨_, -, -, -, -, rfl⟩ | ⟨-, -, -, rfl⟩ <;> exact isArray
    · have bareForm : formOf items none = .schema := by
        simp only [isBare, Bool.and_eq_true, decide_eq_true_eq] at bare
        exact bare.1.1.2
      obtain ⟨_, hr⟩ := resolve_of_form hn bareForm
      obtain ⟨item, rfl, itemType, itemSubtype, itemEnum⟩ := resolve_bare hr bare rfl unknown
      have primitive : isPrimitiveType item.type = true := by
        simp only [isBare, isPrimitive, Bool.and_eq_true] at bare
        rw [itemType]
        exact bare.1.1.1.2
      rcases hc with ⟨_, hitem, -, -, rfl, rfl⟩ | ⟨other, -⟩
      · cases hitem
        refine ⟨?_, subtype.trans itemSubtype, ?_⟩
        · rw [Reading.ofModel, Reading.taken, type, isArray, hdeps, itemType]
        · rw [enum, ← itemEnum, noEnum]
          cases item.enum <;> rfl
      · rw [other item rfl] at primitive
        cases primitive
    · rcases hc with ⟨item, hitem, primitive, -, rfl, rfl⟩ | ⟨-, -, rfl, rfl⟩
      · rcases stands with ⟨r, hr⟩ | ⟨lends, names⟩
        · cases hitem.symm.trans hr
        · exact absurd (lends_of_isPrimitiveType depth hi rfl rfl hitem primitive names) lends
      · rw [Reading.ofModel, Reading.dependent, type, isArray, hdeps]
  · exact absurd array hn

/-- A property of an array type takes over primitive items, and resolves all others as a member
that it depends on. -/
theorem resolveField_array
    (h : Runs (resolveField document self scope parent required name node) p (f, needs) q)
    (plain : node.has "$ref" = false) (array : (declaredType node).1 = some "array")
    (nonNull : (node.get "items").nonNull = some items) :
    (isPrimitive items = true ∧ Reading.ofField f needs = .taken items ∧
      f.subtype = items.get "format" ∧
      f.enum = if node.has "enum" then node.get "enum" else items.get "enum") ∨
    (isPrimitive items = false ∧ ∃ out,
      Runs (resolveMember self scope (memberName parent name) [] items) p out q ∧
      Reading.ofField f needs = .dependent out) := by
  obtain ⟨-, start, g, ho, ht, -, type, -, subtype, -, isArray, enum⟩ := resolveField_runs h
  obtain ⟨-, named, -, startType, -⟩ := outlineField_runs ho
  rw [if_pos array] at isArray
  rw [array] at startType
  obtain rfl := Json.eq_of_nonNull nonNull
  rcases resolveFieldType_runs ht with ⟨_, isRef, -⟩ | ⟨-, -, rfl, -, primitive, rfl⟩ |
    ⟨target, out, -, hi, hm, rfl, rfl⟩ | ⟨-, -, -, other, -⟩
  · cases plain.symm.trans isRef
  · refine Or.inl ⟨primitive, ?_, subtype, ?_⟩
    · rw [Reading.ofField, Reading.taken, type, isArray]
    · rw [enum]
      cases node.has "enum" with
      | true => rfl
      | false =>
        cases he : (node.get "items").has "enum" with
        | true => rfl
        | false => exact (outlineField_enum ho).trans (Json.get_of_has he).symm
  · rcases hi with ⟨-, primitive, hi⟩ | ⟨other, -⟩
    · cases nonNull.symm.trans hi
      rw [named] at hm
      refine Or.inr ⟨primitive, out, hm, ?_⟩
      rw [Reading.ofField, Reading.dependent, type, isArray]
    · exact absurd startType other
  · exact absurd startType other

end Schema

namespace Payload

open Schema

/-- A payload of an array type takes over primitive items and registers all others. -/
theorem resolve_array {payload : Payload} (h : Runs (resolve self scope name node) p payload q)
    (plain : node.has "$ref" = false) (array : (declaredType node).1 = some "array")
    (nonNull : (node.get "items").nonNull = some items) :
    (isPrimitive items = true ∧ Reading.ofPayload payload = .taken items) ∨
    (isPrimitive items = false ∧ ∃ out s found t,
      Runs (self (.ofOwner (scope.down ["items"]) name) items) p out s ∧
      s.registry.assert items out.result .none .structural (scope.down ["items"]).location =
        .ok (found, t) ∧
      Reading.ofPayload payload = .dependent ⟨.ref found.ref, []⟩) := by
  have object : node.isObject = true := by
    cases node <;> first | rfl | cases array
  have present : node.isNull = false := by
    cases node <;> first | rfl | cases array
  obtain rfl := Json.eq_of_nonNull nonNull
  cases resolve_origin h with
  | missing null => exact absurd (present.symm.trans null) (by decide)
  | simple primitive =>
    rw [isPrimitive, array] at primitive
    simp [isPrimitiveType, primitiveTypes] at primitive
  | simples _ _ _ primitive => exact Or.inl ⟨primitive, rfl⟩
  | items _ _ _ others run =>
    obtain ⟨out, s, found, t, hs, ha, rfl, -⟩ := resolveRegistered_runs run
    exact Or.inr ⟨others, out, s, found, t, hs, ha, rfl⟩
  | whole _ _ single _ => simp [object, plain, array] at single

end Payload

open Schema

/-- A schema of an array that is resolved into a model keeps its items. A property and a payload of
the same array read the same of it: of bare items their type, and of all that are not primitive the
name of what the items are resolved into, which they need. -/
theorem array_keeps_items (run : Runs (resolveNode document site node) p ⟨.model m, needs⟩ q)
    (form : formOf node site.hint = .schema) (array : (declaredType node).1 = some "array") :
    ∃ items out s, (node.get "items").nonNull = some items ∧
      Runs (resolveNode document (itemSite site p.registry) items) p out s ∧
      KeepsItems m (if site.owner then m.dependencies else needs) items
        (known site p.registry items) out ∧
      (∀ self scope parent required name p f needs q,
        Runs (resolveField document self scope parent required name node) p (f, needs) q →
        (isBare items = true → Reading.ofField f needs = .taken items ∧
          f.subtype = items.get "format" ∧
          f.enum = if node.has "enum" then node.get "enum" else items.get "enum") ∧
        (isPrimitive items = false → ∃ out,
          Runs (resolveMember self scope (memberName parent name) [] items) p out q ∧
          Reading.ofField f needs = .dependent out)) ∧
      (∀ self scope name p payload q, Runs (Payload.resolve self scope name node) p payload q →
        (isBare items = true → Reading.ofPayload payload = .taken items) ∧
        (isPrimitive items = false → ∃ out s found t,
          Runs (self (.ofOwner (scope.down ["items"]) name) items) p out s ∧
          s.registry.assert items out.result none .structural (scope.down ["items"]).location =
            .ok (found, t) ∧
          Reading.ofPayload payload = .dependent ⟨.ref found.ref, []⟩)) := by
  obtain ⟨items, out, s, nonNull, hi, keeps⟩ := resolveNode_array run form array
  have plain := Schema.plain_of_formOf form nofun
  have primitive (bare : isBare items = true) : isPrimitive items = true := by
    simp only [isBare, Bool.and_eq_true] at bare
    exact bare.1.1.1
  refine ⟨items, out, s, nonNull, hi, keeps, ?_, ?_⟩
  · intro self scope parent required name p f needs q h
    rcases resolveField_array h plain array nonNull with ⟨isPrim, field⟩ | ⟨other, field⟩
    · exact ⟨fun _ => field, fun other => by cases isPrim.symm.trans other⟩
    · exact ⟨fun bare => (by cases (primitive bare).symm.trans other), fun _ => field⟩
  · intro self scope name p payload q h
    rcases Payload.resolve_array h plain array nonNull with ⟨isPrim, read⟩ | ⟨other, read⟩
    · exact ⟨fun _ => read, fun other => by cases isPrim.symm.trans other⟩
    · exact ⟨fun bare => (by cases (primitive bare).symm.trans other), fun _ => read⟩

/-- A schema of lists of some items. -/
def listsOf (items : Json) : Json :=
  .obj [("type", .str "array"), ("items", .obj [("type", .str "array"), ("items", items)])]

/-- The reading of the model that a node is resolved into, with the names of what it depends on. -/
def readingOf (x : Except Failure Outcome × Progress) :
    Option (Option String × Option Bool × List String) :=
  match x with
  | (.ok ⟨.model m, []⟩, _) => some (m.type, m.array, m.dependencies.map Link.name)
  | _ => none

theorem runs_of_readingOf {x : Resolving Outcome} {type : Option String} {isArray : Option Bool}
    {names : List String} (h : readingOf (x.run.run p) = some (type, isArray, names)) :
    ∃ m q, Runs x p ⟨.model m, []⟩ q ∧ m.type = type ∧ m.array = isArray ∧
      m.dependencies.map Link.name = names := by
  unfold readingOf at h
  split at h
  · next m q hx =>
    cases h
    exact ⟨m, q, hx, rfl, rfl, rfl⟩
  · cases h

/-- Whether the models that a run needs are embedded, so that there is no handle among them. -/
def needsModels (x : Except Failure Outcome × Progress) : Bool :=
  match x with
  | (.ok out, _) => out.needs.all fun link => match link with
    | .ref _ => false
    | .model _ => true
  | _ => false

/-- An array of lists of objects is an array of what its items are resolved into. -/
theorem array_keeps_items_objects :
    let grid := listsOf (.obj [("type", .str "object")])
    let site := Site.ofOwner .root "Grid"
    ∃ m out q s, Runs (resolveNode grid site grid) .start ⟨.model m, []⟩ q ∧
      formOf grid site.hint = .schema ∧ (declaredType grid).1 = some "array" ∧
      Runs (resolveNode grid (itemSite site Progress.start.registry) (grid.get "items")) .start
        out s ∧
      Reading.ofModel m m.dependencies = .dependent out ∧
      m.dependencies.map Link.name = ["GridItemsItems", "GridItems"] := by
  intro grid site
  have computed : readingOf ((resolveNode grid site grid).run.run .start) =
      some (some "GridItems", some true, ["GridItemsItems", "GridItems"]) := by decide +kernel
  obtain ⟨m, q, run, -, -, names⟩ := runs_of_readingOf computed
  have form : formOf grid site.hint = .schema := by decide
  have array : (declaredType grid).1 = some "array" := by decide
  obtain ⟨items, out, s, nonNull, hi, keeps, -⟩ := array_keeps_items run form array
  obtain rfl := Json.eq_of_nonNull nonNull
  have lends : ¬ Lends (grid.get "items") := by
    have plain : ¬ Lends (.obj [("type", .str "object")]) := by
      rintro (⟨primitive, -⟩ | ⟨list, -⟩ | param)
      · exact absurd primitive (by decide)
      · exact absurd list (by decide)
      · exact absurd param (by decide)
    rintro (⟨primitive, -⟩ | ⟨-, inner⟩ | param)
    · exact absurd primitive (by decide)
    · exact plain inner
    · exact absurd param (by decide)
  have handles : needsModels ((resolveNode grid (itemSite site Progress.start.registry)
      (grid.get "items")).run.run .start) = true := by decide +kernel
  rw [show _ = (Except.ok out, s) from hi, needsModels, List.all_eq_true] at handles
  have dependent := keeps.dependent (Or.inr ⟨lends, fun r hr => by cases handles _ hr⟩)
  exact ⟨m, out, q, s, run, form, array, hi, dependent, names⟩

/-- An array of lists of a primitive type is no different from an array of that type: it does not
depend on its items, although they are no primitive schema. -/
theorem array_of_lists_collapses :
    ¬ ∀ {document node : Json} {site : Site} {p q : Progress} {m : Model}
        {needs : List (Link Model)}, Runs (resolveNode document site node) p ⟨.model m, needs⟩ q →
      formOf node site.hint = .schema → (declaredType node).1 = some "array" →
      ∃ items out s, (node.get "items").nonNull = some items ∧
        Runs (resolveNode document (itemSite site p.registry) items) p out s ∧
        (isBare items = false →
          Reading.ofModel m (if site.owner then m.dependencies else needs) = .dependent out) := by
  intro keeps
  let grid := listsOf (.obj [("type", .str "string")])
  have computed : readingOf ((resolveNode grid (.ofOwner .root "Grid") grid).run.run .start) =
      some (some "string", some true, []) := by decide +kernel
  obtain ⟨m, q, run, -, -, names⟩ := runs_of_readingOf computed
  obtain ⟨items, out, s, nonNull, -, dependent⟩ := keeps run (by decide) (by decide)
  obtain rfl := Json.eq_of_nonNull nonNull
  have needed := congrArg Reading.needs (dependent (by decide))
  have none : m.dependencies = [] := List.map_eq_nil_iff.1 names
  have : out.needs ++ [out.result] = [] := needed.symm.trans none
  simp at this

end ApiGraph
