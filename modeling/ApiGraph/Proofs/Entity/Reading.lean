import ApiGraph.Entity.Reader
import ApiGraph.Proofs.Entity.Finite
import ApiGraph.Proofs.Json.Inside
import ApiGraph.Proofs.Shape

/-! Entities that are read from what was written of them. A model comes back without the doubles
that have no JSON form, all other entities come back as they were. -/

namespace ApiGraph

open Entity Json Shape

/-- The format of a member is a text and its enumeration a list, if it has them. -/
structure Field.Typed (f : Field) : Prop where
  subtype : f.subtype = .null ∨ ∃ s, f.subtype = .str s
  enum : f.enum = .null ∨ ∃ vs, f.enum = .arr vs

/-- The format of a model is a text and its enumeration a list, if it has them, and likewise for its
members. -/
structure Model.Typed (m : Model) : Prop where
  subtype : m.subtype = .null ∨ ∃ s, m.subtype = .str s
  enum : m.enum = .null ∨ ∃ vs, m.enum = .arr vs
  fields : ∀ f ∈ m.fields, f.Typed

variable {α β : Type} {read : Json → Checked β} {v x : Json} {name : String} {names : List String}
  {d : Option Json} {k : String}

theorem get?_eq_lookup {es : List (String × Json)} (h : v = .obj es) (k : String) :
    v.get? k = es.lookup k := by rw [h, Json.get?]

theorem textual_finite (h : v = .null ∨ ∃ s, v = .str s) :
    v.finite = .null ∨ ∃ s, v.finite = .str s := by
  obtain rfl | ⟨s, rfl⟩ := h
  · exact Or.inl rfl
  · exact Or.inr ⟨s, rfl⟩

theorem textual_bounded (h : v = .null ∨ ∃ s, v = .str s) : v.isUnbounded = false := by
  obtain rfl | ⟨s, rfl⟩ := h <;> rfl

theorem listed_finite (h : v = .null ∨ ∃ vs, v = .arr vs) :
    v.finite = .null ∨ ∃ vs, v.finite = .arr vs := by
  obtain rfl | ⟨vs, rfl⟩ := h
  · exact Or.inl rfl
  · exact Or.inr ⟨_, rfl⟩

theorem listed_bounded (h : v = .null ∨ ∃ vs, v = .arr vs) : v.isUnbounded = false := by
  obtain rfl | ⟨vs, rfl⟩ := h <;> rfl

theorem Field.Typed.finite {f : Field} (h : f.Typed) : f.finite.Typed :=
  ⟨textual_finite h.subtype, listed_finite h.enum⟩

theorem Field.Typed.bounded {f : Field} (h : f.Typed) : f.Bounded :=
  ⟨textual_bounded h.subtype, listed_bounded h.enum⟩

theorem lookup_default (d : Option Json) :
    ((defaultEntry d).lookup "default").or ((nullDefault d).lookup "default") =
      d.map Json.finite := by
  cases d with
  | none => rfl
  | some v =>
    cases v with
    | null => rfl
    | _ => simp [defaultEntry, nullDefault, nonNull]

theorem lookup_defaultEntry (h : (k == "default") = false) : (defaultEntry d).lookup k = none := by
  rw [defaultEntry, lookup_entry?, h]
  rfl

theorem lookup_nullDefault (h : (k == "default") = false) : (nullDefault d).lookup k = none := by
  unfold nullDefault
  split
  · rw [List.lookup_cons, h]
    rfl
  · rfl

theorem text_fits {s : String} (h : v.get? name = some (.str s)) :
    mandatory [name] text v = .fits s := field_fits h rfl

theorem flag_fits {b default : Bool} (h : v.get? name = some (.bool b)) :
    withDefault [name] default flag v = .fits b := field_fits h rfl

theorem kind_fits {kind default : Kind} (h : v.get? name = some (.str kind.word)) :
    withDefault [name] default kindShape v = .fits kind :=
  field_fits h (by rw [kindShape, choice, Kind.ofWord?_word])

theorem optionalField_fits {f : α → Json} {g : α → β} {o : Option α} (h : v.get? name = o.map f)
    (others : ∀ n ∈ names, v.get? n = none) (some : ∀ a, (f a).isNull = false)
    (fits : ∀ a ∈ o, read (f a) = .fits (g a)) :
    optionalField (name :: names) read v = .fits (o.map g) := by
  cases o with
  | none => exact withDefault_fits (by simpa using ⟨h, others⟩)
  | some a =>
    refine field_fits h ?_
    have fits := fits a rfl
    have some := some a
    generalize f a = x at fits some
    unfold Shape.optional
    split
    · cases some
    · rw [fits]
      rfl

theorem optionalText_fits {o : Option String} (h : v.get? name = o.map .str)
    (others : ∀ n ∈ names, v.get? n = none) :
    optionalField (name :: names) text v = .fits o := by
  rw [optionalField_fits (g := id) h others (fun _ => rfl) fun _ _ => rfl, Option.map_id]
  rfl

theorem optionalFlag_fits {o : Option Bool} (h : v.get? name = o.map .bool) :
    optionalField [name] flag v = .fits o := by
  rw [optionalField_fits (g := id) h (by simp) (fun _ => rfl) fun _ _ => rfl, Option.map_id]
  rfl

/-- A value that is left out when it is null comes back without doubles that have no JSON form. -/
theorem nonNull_fits {read : Json → Checked Json} (h : v.get? name = x.nonNull.map Json.finite)
    (others : ∀ n ∈ names, v.get? n = none) (fits : read x.finite = .fits x.finite) :
    withDefault (name :: names) .null read v = .fits x.finite := by
  cases hx : x.nonNull with
  | none =>
    rw [hx] at h
    rw [withDefault_fits (by simpa using ⟨h, others⟩), nonNull_eq_none hx]
    rfl
  | some y =>
    obtain rfl : x = y := by cases x <;> cases hx <;> rfl
    rw [hx] at h
    exact field_fits h fits

theorem free_fits {es : Dict String Json} (h : v.get? name = some (.obj (finiteEntries es))) :
    withDefault [name] [] freeShape v = .fits (finiteEntries es) := by
  rw [finiteEntries_eq_map] at h ⊢
  exact field_fits h (dict_fits fun _ _ => rfl)

theorem list_field_fits {f : α → Json} {g : α → β} {as : List α} {absent : Checked (List β)}
    (h : v.get? name = some (.arr (as.map f))) (fits : ∀ a ∈ as, read (f a) = .fits (g a)) :
    field (name :: names) absent (list read) v = .fits (as.map g) :=
  field_fits h (list_fits fits)

theorem textOrNull_fits (h : v = .null ∨ ∃ s, v = .str s) : textOrNull v = .fits v := by
  obtain rfl | ⟨s, rfl⟩ := h <;> rfl

theorem listOrNull_fits (h : v = .null ∨ ∃ vs, v = .arr vs) : listOrNull v = .fits v := by
  obtain rfl | ⟨s, rfl⟩ := h <;> rfl

theorem Ref.ofJson_toJson (r : Ref) : Ref.ofJson r.toJson = .fits r := by
  have name : mandatory ["name"] text r.toJson = .fits r.name := text_fits rfl
  have kind : withDefault ["kind"] .ref kindShape r.toJson = .fits r.kind := kind_fits rfl
  change Ref.mk <$> _ <*> _ = _
  rw [name, kind]
  rfl

namespace Field

theorem ofJson_toJson {f : Field} (h : f.finite.Typed) : ofJson f.toJson = .fits f.finite := by
  have get? := get?_eq_lookup f.toJson_eq
  simp only [beforeDefault, afterDefault, List.lookup_append, textEntry, nonNullEntry, flagEntry,
    freeEntry, lookup_entry, lookup_entry?] at get?
  have name : mandatory ["name"] text f.toJson = .fits f.name :=
    text_fits (by simp [get?])
  have kind : withDefault ["kind"] .schema kindShape f.toJson = .fits f.kind :=
    kind_fits (by simp [get?])
  have type : optionalField ["type"] text f.toJson = .fits f.type :=
    optionalText_fits (by simp [get?, lookup_defaultEntry, lookup_nullDefault]) (by simp)
  have subtype : withDefault ["subtype"] .null textOrNull f.toJson = .fits f.subtype.finite :=
    nonNull_fits (by simp [get?, lookup_defaultEntry, lookup_nullDefault]) (by simp)
      (textOrNull_fits h.subtype)
  have enum : withDefault ["enum"] .null listOrNull f.toJson = .fits f.enum.finite :=
    nonNull_fits (by simp [get?, lookup_defaultEntry, lookup_nullDefault]) (by simp)
      (listOrNull_fits h.enum)
  have array : optionalField ["array"] flag f.toJson = .fits f.array :=
    optionalFlag_fits (by simp [get?, lookup_defaultEntry, lookup_nullDefault])
  have required : withDefault ["required"] false flag f.toJson = .fits f.required :=
    flag_fits (by simp [get?])
  have default : defaultField f.toJson = .fits (f.default.map Json.finite) := by
    rw [defaultField, ← lookup_default]
    simp [get?]
  have description : optionalField ["description"] text f.toJson = .fits f.description :=
    optionalText_fits (by simp [get?, lookup_defaultEntry, lookup_nullDefault]) (by simp)
  have validations : withDefault ["validations"] [] freeShape f.toJson =
      .fits (finiteEntries f.validations) :=
    free_fits (by simp [get?, lookup_defaultEntry])
  have extras : withDefault ["extras"] [] freeShape f.toJson = .fits (finiteEntries f.extras) :=
    free_fits (by simp [get?, lookup_defaultEntry])
  change Field.mk <$> _ <*> _ <*> _ <*> _ <*> _ <*> _ <*> _ <*> _ <*> _ <*> _ <*> _ = _
  rw [name, kind, type, subtype, enum, array, required, default, description, validations, extras]
  rfl

end Field

theorem list_field_fits_same {f : β → Json} {bs : List β} (h : v.get? name = some (.arr (bs.map f)))
    (fits : ∀ b, read (f b) = .fits b) : listField (name :: names) read v = .fits bs :=
  field_fits h (list_fits_same fits bs)

theorem texts_fits {ts : List String} (h : v.get? name = some (.arr (ts.map .str))) :
    listField (name :: names) text v = .fits ts := list_field_fits_same h fun _ => rfl

theorem handles_fits {rs : List Ref} (h : v.get? name = some (Ref.listJson rs)) :
    listField (name :: names) Ref.ofJson v = .fits rs := list_field_fits_same h Ref.ofJson_toJson

theorem optionalHandle_fits {o : Option Ref} (h : v.get? name = o.map Ref.toJson)
    (others : ∀ n ∈ names, v.get? n = none) :
    optionalField (name :: names) Ref.ofJson v = .fits o := by
  rw [optionalField_fits (g := id) h others (fun _ => rfl) fun r _ => r.ofJson_toJson, Option.map_id]
  rfl

theorem Path.ofJson_toJson (p : Path) : Path.ofJson p.toJson = .fits p := by
  have get? := get?_eq_lookup (v := p.toJson) rfl
  simp only [List.lookup_append, textEntry, lookup_entry, lookup_entry?] at get?
  have name : mandatory ["name"] text p.toJson = .fits p.name := text_fits (by simp [get?])
  have kind : withDefault ["kind"] .path kindShape p.toJson = .fits p.kind :=
    kind_fits (by simp [get?])
  have summary : optionalField ["summary"] text p.toJson = .fits p.summary :=
    optionalText_fits (by simp [get?]) (by simp)
  have description : optionalField ["description"] text p.toJson = .fits p.description :=
    optionalText_fits (by simp [get?]) (by simp)
  have methods : listField ["methods"] text p.toJson = .fits p.methods :=
    texts_fits (by simp [get?])
  change Path.mk <$> _ <*> _ <*> _ <*> _ <*> _ = _
  rw [name, kind, summary, description, methods]
  rfl

theorem Response.ofJson_toJson (r : Response) : Response.ofJson r.toJson = .fits r := by
  have get? := get?_eq_lookup (v := r.toJson) rfl
  simp only [List.lookup_append, textEntry, flagEntry, lookup_entry, lookup_entry?] at get?
  have name : mandatory ["name"] text r.toJson = .fits r.name := text_fits (by simp [get?])
  have kind : withDefault ["kind"] .response kindShape r.toJson = .fits r.kind :=
    kind_fits (by simp [get?])
  have status : mandatory ["status"] text r.toJson = .fits r.status := text_fits (by simp [get?])
  have type : optionalField ["type"] text r.toJson = .fits r.type :=
    optionalText_fits (by simp [get?]) (by simp)
  have payload : optionalField ["payload"] Ref.ofJson r.toJson = .fits r.payload :=
    optionalHandle_fits (by simp [get?]) (by simp)
  have array : optionalField ["array"] flag r.toJson = .fits r.array :=
    optionalFlag_fits (by simp [get?])
  have headers : withDefault ["headers"] [] (dict Ref.ofJson) r.toJson = .fits r.headers := by
    refine field_fits (x := .obj (r.headers.map fun p => (p.1, p.2.toJson))) (by simp [get?]) ?_
    exact dict_fits_same Ref.ofJson_toJson r.headers
  have description : optionalField ["description"] text r.toJson = .fits r.description :=
    optionalText_fits (by simp [get?]) (by simp)
  have mediaType : optionalField ["contentType", "content_type"] text r.toJson = .fits r.mediaType :=
    optionalText_fits (by simp [get?]) (by simp [get?])
  change Response.mk <$> _ <*> _ <*> _ <*> _ <*> _ <*> _ <*> _ <*> _ <*> _ = _
  rw [name, kind, status, type, payload, array, headers, description, mediaType]
  rfl

theorem RequestBody.ofJson_toJson (b : RequestBody) : RequestBody.ofJson b.toJson = .fits b := by
  have get? := get?_eq_lookup (v := b.toJson) rfl
  simp only [List.lookup_append, textEntry, flagEntry, lookup_entry, lookup_entry?] at get?
  have name : mandatory ["name"] text b.toJson = .fits b.name := text_fits (by simp [get?])
  have kind : withDefault ["kind"] .requestBody kindShape b.toJson = .fits b.kind :=
    kind_fits (by simp [get?])
  have type : optionalField ["type"] text b.toJson = .fits b.type :=
    optionalText_fits (by simp [get?]) (by simp)
  have payload : optionalField ["payload"] Ref.ofJson b.toJson = .fits b.payload :=
    optionalHandle_fits (by simp [get?]) (by simp)
  have array : optionalField ["array"] flag b.toJson = .fits b.array :=
    optionalFlag_fits (by simp [get?])
  have required : withDefault ["required"] false flag b.toJson = .fits b.required :=
    flag_fits (by simp [get?])
  have description : optionalField ["description"] text b.toJson = .fits b.description :=
    optionalText_fits (by simp [get?]) (by simp)
  have mediaType : optionalField ["contentType", "content_type"] text b.toJson = .fits b.mediaType :=
    optionalText_fits (by simp [get?]) (by simp [get?])
  change RequestBody.mk <$> _ <*> _ <*> _ <*> _ <*> _ <*> _ <*> _ <*> _ = _
  rw [name, kind, type, payload, array, required, description, mediaType]
  rfl

theorem requirementsShape_json (security : List (Dict String (List String))) :
    requirementsShape (.arr (security.map requirementJson)) = .fits security := by
  have scopes (words : List String) : list text (.arr (words.map .str)) = .fits words :=
    list_fits_same (fun s => (rfl : text (.str s) = .fits s)) words
  exact list_fits_same (dict_fits_same scopes) security

theorem Method.ofJson_toJson (m : Method) : Method.ofJson m.toJson = .fits m := by
  have get? := get?_eq_lookup (v := m.toJson) rfl
  simp only [List.lookup_append, textEntry, lookup_entry, lookup_entry?] at get?
  have name : mandatory ["name"] text m.toJson = .fits m.name := text_fits (by simp [get?])
  have kind : withDefault ["kind"] .method kindShape m.toJson = .fits m.kind :=
    kind_fits (by simp [get?])
  have verb : mandatory ["verb"] (choice Verb.ofWord?) m.toJson = .fits m.verb :=
    field_fits (x := .str m.verb.word) (by simp [get?]) (by rw [choice, Verb.ofWord?_word])
  have path : mandatory ["path"] text m.toJson = .fits m.path := text_fits (by simp [get?])
  have operationId : optionalField ["operationId", "operation_id"] text m.toJson =
      .fits m.operationId := optionalText_fits (by simp [get?]) (by simp [get?])
  have summary : optionalField ["summary"] text m.toJson = .fits m.summary :=
    optionalText_fits (by simp [get?]) (by simp)
  have description : optionalField ["description"] text m.toJson = .fits m.description :=
    optionalText_fits (by simp [get?]) (by simp)
  have tags : listField ["tags"] text m.toJson = .fits m.tags := texts_fits (by simp [get?])
  have deprecated : withDefault ["deprecated"] false flag m.toJson = .fits m.deprecated :=
    flag_fits (by simp [get?])
  have security : withDefault ["security"] [] requirementsShape m.toJson = .fits m.security :=
    field_fits (by simp [get?]) (requirementsShape_json _)
  have pathParams : listField ["pathParams", "path_params"] Ref.ofJson m.toJson =
      .fits m.pathParams := handles_fits (by simp [get?])
  have queryParams : listField ["queryParams", "query_params"] Ref.ofJson m.toJson =
      .fits m.queryParams := handles_fits (by simp [get?])
  have headerParams : listField ["headerParams", "header_params"] Ref.ofJson m.toJson =
      .fits m.headerParams := handles_fits (by simp [get?])
  have pathObject : optionalField ["pathObject", "path_object"] Ref.ofJson m.toJson =
      .fits m.pathObject := optionalHandle_fits (by simp [get?]) (by simp [get?])
  have queryObject : optionalField ["queryObject", "query_object"] Ref.ofJson m.toJson =
      .fits m.queryObject := optionalHandle_fits (by simp [get?]) (by simp [get?])
  have headerObject : optionalField ["headerObject", "header_object"] Ref.ofJson m.toJson =
      .fits m.headerObject := optionalHandle_fits (by simp [get?]) (by simp [get?])
  have responses : listField ["responses"] Response.ofJson m.toJson = .fits m.responses :=
    list_field_fits_same (by simp [get?]) Response.ofJson_toJson
  have requestBodies : listField ["requestBodies", "request_bodies"] RequestBody.ofJson m.toJson =
      .fits m.requestBodies := list_field_fits_same (by simp [get?]) RequestBody.ofJson_toJson
  change Method.mk <$> _ <*> _ <*> _ <*> _ <*> _ <*> _ <*> _ <*> _ <*> _ <*> _ <*> _ <*> _ <*> _ <*>
    _ <*> _ <*> _ <*> _ <*> _ = _
  rw [name, kind, verb, path, operationId, summary, description, tags, deprecated, security,
    pathParams, queryParams, headerParams, pathObject, queryObject, headerObject, responses,
    requestBodies]
  rfl

namespace Json

/-- An item under a key of an object is smaller than the object. -/
theorem size_lt_of_get? {items : List Json} (h : v.get? k = some (.arr items)) (hx : x ∈ items) :
    x.size < v.size :=
  ((Inside.item hx).trans (inside_get? h)).size_lt

end Json

theorem isRefJson_toJson_ref (r : Ref) : isRefJson r.toJson = r.kind.isRef := by
  have h : r.toJson.get "kind" = .str r.kind.word := rfl
  rw [isRefJson, h]
  cases r.kind <;> rfl

variable {m : Model}

namespace Model

theorem isRefJson_toJson (m : Model) : isRefJson m.toJson = m.kind.isRef := by
  have h : m.toJson.get "kind" = .str m.kind.word := by
    rw [Json.get, get?_eq_lookup m.toJson_eq]
    simp [beforeDefault, List.lookup_append]
  rw [isRefJson, h]
  cases m.kind <;> rfl

/-- A handle is read, and an embedded model if it is read within the bound. -/
theorem link_fits {link : Link Model} {depth : Nat} (handle : ∀ r, link = .ref r → r.kind.isRef = true)
    (model : ∀ k, link = .model k → k.kind.isRef = false ∧ Model.read depth k.toJson = .fits k.finite) :
    linkOfJson (Model.read depth) (linkJson link) = .fits (finiteLink link) := by
  cases link with
  | ref r =>
    rw [linkJson, linkOfJson, isRefJson_toJson_ref, if_pos (handle r rfl), r.ofJson_toJson]
    rfl
  | model k =>
    obtain ⟨kind, fits⟩ := model k rfl
    rw [linkJson, linkOfJson, isRefJson_toJson, kind, fits]
    rfl

/-- A model is read as far as it embeds others when the bound on the depth is its size. -/
theorem read_toJson (h : m.Throughout fun k => k.finite.Typed) {depth : Nat}
    (bound : m.toJson.size ≤ depth) : Model.read (depth + 1) m.toJson = .fits m.finite := by
  induction h generalizing depth with
  | @intro m here refs kinds models ih =>
    have get? := get?_eq_lookup m.toJson_eq
    simp only [beforeDefault, afterDefault, List.lookup_append, textEntry, nonNullEntry, flagEntry,
      freeEntry, lookup_entry, lookup_entry?] at get?
    have link {key : String} {links : List (Link Model)}
        (written : m.toJson.get? key = some (.arr (links.map linkJson))) (sub : links ⊆ m.inner) :
        ∀ l ∈ links, linkOfJson (Model.read depth) (linkJson l) = .fits (finiteLink l) := by
      intro l hl
      refine link_fits (fun r hr => refs r (hr ▸ sub hl)) fun k hk => ⟨kinds k (hk ▸ sub hl), ?_⟩
      subst hk
      have smaller := size_lt_of_get? written (List.mem_map_of_mem hl)
      rw [linkJson] at smaller
      obtain ⟨deeper, rfl⟩ : ∃ deeper, depth = deeper + 1 := ⟨depth - 1, by omega⟩
      exact ih k (sub hl) (by omega)
    have branch (key other : String) {o : Option (List (Link Model))}
        (written : m.toJson.get? key = o.map fun links => .arr (links.map linkJson))
        (absent : m.toJson.get? other = none) (sub : o.getD [] ⊆ m.inner) :
        optionalField [key, other] (list (linkOfJson (Model.read depth))) m.toJson =
          .fits (o.map (List.map finiteLink)) := by
      refine optionalField_fits written (by simpa using absent) (fun _ => rfl) fun links hl => ?_
      cases hl
      exact list_fits (link written sub)
    have name : mandatory ["name"] text m.toJson = .fits m.name := text_fits (by simp [get?])
    have kind : withDefault ["kind"] .schema kindShape m.toJson = .fits m.kind :=
      kind_fits (by simp [get?])
    have source : anyField ["sourceSchema", "source_schema"] m.toJson = .fits m.source.finite := by
      have absent : m.toJson.get? "source_schema" = none := by
        simp [get?, lookup_defaultEntry, lookup_nullDefault]
      exact nonNull_fits (by simp [get?, lookup_defaultEntry, lookup_nullDefault])
        (by simpa using absent) rfl
    have location : optionalField ["location"] text m.toJson = .fits m.location :=
      optionalText_fits (by simp [get?, lookup_defaultEntry, lookup_nullDefault]) (by simp)
    have type : optionalField ["type"] text m.toJson = .fits m.type :=
      optionalText_fits (by simp [get?, lookup_defaultEntry, lookup_nullDefault]) (by simp)
    have subtype : withDefault ["subtype"] .null textOrNull m.toJson = .fits m.subtype.finite :=
      nonNull_fits (by simp [get?, lookup_defaultEntry, lookup_nullDefault]) (by simp)
        (textOrNull_fits (by simpa [finite_eq] using here.subtype))
    have array : optionalField ["array"] flag m.toJson = .fits m.array :=
      optionalFlag_fits (by simp [get?, lookup_defaultEntry, lookup_nullDefault])
    have enum : withDefault ["enum"] .null listOrNull m.toJson = .fits m.enum.finite :=
      nonNull_fits (by simp [get?, lookup_defaultEntry, lookup_nullDefault]) (by simp)
        (listOrNull_fits (by simpa [finite_eq] using here.enum))
    have default : defaultField m.toJson = .fits (m.default.map Json.finite) := by
      rw [defaultField, ← lookup_default]
      simp [get?]
    have description : optionalField ["description"] text m.toJson = .fits m.description :=
      optionalText_fits (by simp [get?, lookup_defaultEntry, lookup_nullDefault]) (by simp)
    have validations : withDefault ["validations"] [] freeShape m.toJson =
        .fits (finiteEntries m.validations) := free_fits (by simp [get?, lookup_defaultEntry])
    have extras : withDefault ["extras"] [] freeShape m.toJson = .fits (finiteEntries m.extras) :=
      free_fits (by simp [get?, lookup_defaultEntry])
    have dependencies : listField ["dependencies"] (linkOfJson (Model.read depth)) m.toJson =
        .fits (m.dependencies.map finiteLink) := by
      have written : m.toJson.get? "dependencies" = some (.arr (m.dependencies.map linkJson)) := by
        simp [get?, lookup_defaultEntry]
      exact list_field_fits written (link written dependencies_subset)
    have fields : listField ["fields"] Field.ofJson m.toJson = .fits (m.fields.map Field.finite) := by
      refine list_field_fits (by simp [get?, lookup_defaultEntry]) fun f hf => Field.ofJson_toJson ?_
      exact here.fields _ (by rw [finite_eq]; exact List.mem_map_of_mem hf)
    have allOf := branch "allOf" "all_of"
      (by simp [get?, lookup_defaultEntry, lookup_nullDefault])
      (by simp [get?, lookup_defaultEntry, lookup_nullDefault]) allOf_subset
    have anyOf := branch "anyOf" "any_of"
      (by simp [get?, lookup_defaultEntry, lookup_nullDefault])
      (by simp [get?, lookup_defaultEntry, lookup_nullDefault]) anyOf_subset
    have oneOf := branch "oneOf" "one_of"
      (by simp [get?, lookup_defaultEntry, lookup_nullDefault])
      (by simp [get?, lookup_defaultEntry, lookup_nullDefault]) oneOf_subset
    rw [finite_eq, Model.read, record, if_pos (by rw [toJson_eq]; rfl)]
    rw [name, kind, source, location, type, subtype, array, enum, default, description, validations,
      extras, dependencies, fields, allOf, anyOf, oneOf]
    rfl

theorem Typed.finite (h : m.Typed) : m.finite.Typed := by
  rw [finite_eq]
  refine ⟨textual_finite h.subtype, listed_finite h.enum, fun f hf => ?_⟩
  obtain ⟨g, hg, rfl⟩ := List.mem_map.1 hf
  exact (h.fields g hg).finite

theorem Typed.bounded (h : m.Typed) (source : m.source.isUnbounded = false) : m.Bounded :=
  ⟨source, textual_bounded h.subtype, listed_bounded h.enum, fun f hf => (h.fields f hf).bounded⟩

theorem ofJson_toJson (h : m.Throughout fun k => k.finite.Typed) :
    Model.ofJson m.toJson = .fits m.finite := read_toJson h (Nat.le_refl _)

end Model

/-! What was written of a model is read only if the model is of the declared types. -/

theorem fits_of_nonNull {read : Json → Checked Json} {default : Json}
    (h : v.get? name = x.nonNull.map Json.finite)
    (fits : (withDefault (name :: names) default read v).Fits) :
    x = .null ∨ (read x.finite).Fits := by
  cases hx : x.nonNull with
  | none => exact Or.inl (nonNull_eq_none hx)
  | some y =>
    obtain rfl : x = y := by cases x <;> cases hx <;> rfl
    rw [hx] at h
    exact Or.inr (fits_of_field h fits)

theorem textual_of_fits {default : Json} (h : v.get? name = x.nonNull.map Json.finite)
    (fits : (withDefault (name :: names) default textOrNull v).Fits) :
    x.finite = .null ∨ ∃ s, x.finite = .str s := by
  obtain rfl | ⟨_, fits⟩ := fits_of_nonNull h fits
  · exact Or.inl rfl
  generalize x.finite = y at fits ⊢
  unfold textOrNull at fits
  split at fits
  · exact Or.inl rfl
  · exact Or.inr ⟨_, rfl⟩
  · cases fits

theorem listed_of_fits {default : Json} (h : v.get? name = x.nonNull.map Json.finite)
    (fits : (withDefault (name :: names) default listOrNull v).Fits) :
    x.finite = .null ∨ ∃ vs, x.finite = .arr vs := by
  obtain rfl | ⟨_, fits⟩ := fits_of_nonNull h fits
  · exact Or.inl rfl
  generalize x.finite = y at fits ⊢
  unfold listOrNull at fits
  split at fits
  · exact Or.inl rfl
  · exact Or.inr ⟨_, rfl⟩
  · cases fits

theorem Field.typed_of_fits {f : Field} (h : (ofJson f.toJson).Fits) : f.finite.Typed := by
  have get? := get?_eq_lookup f.toJson_eq
  simp only [beforeDefault, afterDefault, List.lookup_append, textEntry, nonNullEntry, flagEntry,
    freeEntry, lookup_entry, lookup_entry?] at get?
  rw [ofJson, record, if_pos (by rw [toJson_eq]; rfl)] at h
  simp only [Checked.fits_seq, Checked.fits_map, and_assoc] at h
  obtain ⟨-, -, -, subtype, enum, -⟩ := h
  exact ⟨textual_of_fits (by simp [get?, lookup_defaultEntry, lookup_nullDefault]) subtype,
    listed_of_fits (by simp [get?, lookup_defaultEntry, lookup_nullDefault]) enum⟩

namespace Model

theorem typed_of_read {depth : Nat}
    (refs : ∀ r : Ref, (Link.ref r).Within m.inner → r.kind.isRef = true)
    (kinds : ∀ k : Model, (Link.model k).Within m.inner → k.kind.isRef = false)
    (h : (Model.read depth m.toJson).Fits) : m.Throughout fun k => k.finite.Typed := by
  induction m using Model.induction generalizing depth with
  | embeds m ih =>
    have get? := get?_eq_lookup m.toJson_eq
    simp only [beforeDefault, afterDefault, List.lookup_append, textEntry, nonNullEntry, flagEntry,
      freeEntry, lookup_entry, lookup_entry?] at get?
    cases depth with
    | zero => exact absurd h Checked.not_fits_fails
    | succ depth =>
      rw [Model.read, record, if_pos (by rw [toJson_eq]; rfl)] at h
      simp only [Checked.fits_seq, Checked.fits_map, and_assoc] at h
      obtain ⟨-, -, -, -, -, subtype, -, enum, -, -, -, -, dependencies, fields, allOf, anyOf,
        oneOf⟩ := h
      have branch (key other : String) {o : Option (List (Link Model))}
          (written : m.toJson.get? key = o.map fun links => .arr (links.map linkJson))
          (fits : (optionalField [key, other] (list (linkOfJson (Model.read depth))) m.toJson).Fits) :
          ∀ l ∈ o.getD [], (linkOfJson (Model.read depth) (linkJson l)).Fits := by
        cases o with
        | none => simp
        | some links =>
          have fits := fits_of_field written fits
          exact fits_of_list (Checked.fits_map.1 fits)
      have link : ∀ l ∈ m.inner, (linkOfJson (Model.read depth) (linkJson l)).Fits := by
        intro l hl
        simp only [inner, branches, List.mem_append] at hl
        rcases hl with hl | (hl | hl) | hl
        · exact fits_of_list (fits_of_field (by simp [get?, lookup_defaultEntry]) dependencies) l hl
        · exact branch "allOf" "all_of" (by simp [get?, lookup_defaultEntry, lookup_nullDefault]) allOf l hl
        · exact branch "anyOf" "any_of" (by simp [get?, lookup_defaultEntry, lookup_nullDefault]) anyOf l hl
        · exact branch "oneOf" "one_of" (by simp [get?, lookup_defaultEntry, lookup_nullDefault]) oneOf l hl
      refine .intro ?_ (fun r hr => refs r (.here hr)) (fun k hk => kinds k (.here hk)) fun k hk => ?_
      · rw [finite_eq]
        refine ⟨textual_of_fits (by simp [get?, lookup_defaultEntry, lookup_nullDefault]) subtype,
          listed_of_fits (by simp [get?, lookup_defaultEntry, lookup_nullDefault]) enum, ?_⟩
        intro f hf
        obtain ⟨g, hg, rfl⟩ := List.mem_map.1 hf
        exact Field.typed_of_fits
          (fits_of_list (fits_of_field (by simp [get?, lookup_defaultEntry]) fields) g hg)
      · have fits := link _ hk
        rw [linkJson, linkOfJson, isRefJson_toJson, kinds k (.here hk)] at fits
        exact ih k hk (fun r hr => refs r (.inside hk hr)) (fun j hj => kinds j (.inside hk hj))
          (Checked.fits_map.1 (Checked.fits_under.1 fits))

end Model

end ApiGraph
