import ApiGraph.Proofs.Arrays
import ApiGraph.Proofs.Contents

/-! Parameters with a primitive schema in place, or a list of one. A parameter copies such a schema,
unless it finds the content of the list registered; and only the payload of an operation that is a
list of such lists registers it. -/

namespace ApiGraph

open Resolving Registry

/-- A description that is a text, or none. -/
def Json.Described (v : Json) : Prop := ∃ text, descriptionOf v = .fits text

namespace Schema

/-- A schema in place is primitive, or a list of a primitive one; what has the type. -/
inductive Simple (schema : Json) : Json → Option Bool → Prop
  | bare (bare : isBare schema = true) : Simple schema schema none
  | list (form : formOf schema none = .schema) (array : (declaredType schema).1 = some "array")
    (items : isBare (schema.get "items") = true) : Simple schema (schema.get "items") (some true)

variable {document v schema value : Json} {self : Resolver} {site : Site} {p q : Progress} {m : Model}
  {array : Option Bool} {offered : Json → Prop} {r : Registry}

/-- What makes a schema bare. -/
structure Bare (v : Json) : Prop where
  primitive : isPrimitive v = true
  form : formOf v none = .schema
  closed : v.has "additionalProperties" = false
  single : isComposite v = false

theorem bare_of_isBare (h : isBare v = true) : Bare v := by
  simp only [isBare, Bool.and_eq_true, decide_eq_true_eq, Bool.not_eq_true'] at h
  exact ⟨h.1.1.1, h.1.1.2, h.1.2, h.2⟩

namespace Bare

theorem typed (h : Bare v) : isPrimitiveType (declaredType v).1 = true := by
  have primitive := h.primitive
  rw [isPrimitive, Bool.and_eq_true] at primitive
  exact primitive.2

theorem isObject (h : Bare v) : v.isObject = true := by
  have primitive := h.primitive
  rw [isPrimitive, Bool.and_eq_true, Bool.and_eq_true] at primitive
  exact primitive.1.1

theorem isStructured (h : Bare v) : isStructured v = false := by
  rw [Schema.isStructured, h.single, h.closed]
  exact Bool.and_false _

theorem not_array (h : Bare v) : (declaredType v).1 ≠ some "array" := by
  intro array
  have typed := h.typed
  rw [array] at typed
  cases typed

end Bare

namespace Simple

theorem form (h : Simple schema value array) : formOf schema none = .schema := by
  cases h with
  | bare bare => exact (bare_of_isBare bare).form
  | list form _ _ => exact form

theorem isStructured (h : Simple schema value array) : isStructured schema = false := by
  cases h with
  | bare bare => exact (bare_of_isBare bare).isStructured
  | list _ array _ => rw [Schema.isStructured, array]; rfl

theorem inner (h : Simple schema value array) : Simple value value none := by
  cases h with
  | bare bare => exact .bare bare
  | list _ _ items => exact .bare items

end Simple

theorem isStructured_of_alike {v w : Json} (h : Json.Alike v w) (hv : isStructured v = true) :
    isStructured w = true := by
  have composite : isComposite v = isComposite w := by simp only [isComposite, combinatorKeys, List.any_cons, List.any_nil, h.has_eq]
  rw [isStructured, composite, h.has_eq, Bool.and_eq_true] at hv
  rw [isStructured, hv.2, Bool.and_true, bne_iff_ne]
  exact fun array => (bne_iff_ne.1 hv.1) (declaredType_of_alike h.symm (by decide) array)

/-- A simple schema whose content is registered is a list, and a payload is a list of it. -/
theorem Simple.payload (h : Simple schema value array) (admits : r.Admits offered)
    (known : r.findStructural schema ≠ none) : array = some true ∧ ∃ list items, offered list ∧
      Payload.registered? list = some items ∧ Json.Alike schema items := by
  obtain ⟨ref, found⟩ := Option.ne_none_iff_exists'.1 known
  obtain ⟨name, -, content, -⟩ := findStructural_eq_some found
  obtain ⟨v, enters, same⟩ := admits _ _ content
  have alike : Json.Alike v schema := Json.canonical_eq_iff.1 same
  have plain := Schema.plain_of_formOf h.form nofun
  cases enters with
  | reference refers =>
    rw [alike.has_eq, plain] at refers
    cases refers
  | parameter named placed =>
    rw [alike.has_eq] at named placed
    exact absurd h.form (Schema.formOf_ne_schema named placed)
  | structured shape =>
    have := isStructured_of_alike alike shape
    rw [h.isStructured] at this
    cases this
  | payload mem registers =>
    cases h with
    | bare bare =>
      have primitive := (isPrimitive_eq_of_alike alike).trans (bare_of_isBare bare).primitive
      unfold Payload.registered? at registers
      repeat' split at registers
      all_goals simp_all
    | list _ _ _ => exact ⟨rfl, _, v, mem, registers, alike.symm⟩

/-- What a model takes from a simple schema. -/
structure Copies (m : Model) (value : Json) (array : Option Bool) : Prop where
  type : m.type = (declaredType value).1
  subtype : m.subtype = value.get "format"
  isArray : m.array = array
  independent : m.dependencies = []

theorem outline_run (site : Site) (described : v.Described) (p : Progress) :
    ∃ m, Runs (outline site v) p m p := by
  obtain ⟨text, fits⟩ := described
  simp only [outline, fits, runs_bind, runs_fit, runs_pure]
  exact ⟨_, _, _, ⟨rfl, rfl⟩, rfl, rfl⟩

theorem resolve_run {start : Model} {needs : List (Link Model)}
    (unknown : known site p.registry v = none) (outlined : Runs (outline site v) p start p)
    (parts : Runs (resolveParts document self site v start) p (m, needs) q) :
    Runs (resolve document self site v) p
      (if site.owner then ⟨.model { m with dependencies := needs }, []⟩ else ⟨.model m, needs⟩) q := by
  rw [known] at unknown
  simp only [resolve, runs_bind, runs_registry]
  refine ⟨_, _, ⟨rfl, rfl⟩, ?_⟩
  rw [unknown]
  simp only [runs_bind]
  refine ⟨_, _, outlined, _, _, parts, ?_⟩
  split <;> exact runs_pure.2 ⟨rfl, rfl⟩

theorem resolve_known_run {ref : Ref} (found : known site p.registry v = some ref) :
    Runs (resolve document self site v) p ⟨.ref ref, []⟩ p := by
  rw [known] at found
  simp only [resolve, runs_bind, runs_registry]
  refine ⟨_, _, ⟨rfl, rfl⟩, ?_⟩
  rw [found]
  exact runs_pure.2 ⟨rfl, rfl⟩

/-- A bare schema is copied. -/
theorem Bare.run (bare : Bare v) (document : Json) (self : Resolver) (described : v.Described)
    (unknown : known site p.registry v = none) : ∃ m, Runs (resolve document self site v) p ⟨.model m, []⟩ p ∧ Copies m v none ∧
      Parameter.isObjectShaped m = false := by
  obtain ⟨start, outlined⟩ := outline_run site described p
  obtain ⟨-, -, -, blank⟩ := outline_blank outlined
  obtain ⟨-, -, -, -, independent, -⟩ := outline_runs outlined
  have parts : Runs (resolveParts document self site v start) p (resolvePlain v start, []) p := by
    simp only [resolveParts, if_neg bare.not_array, resolveMapValues, Json.get_of_has bare.closed,
      bare.single, runs_bind, runs_pure]
    exact ⟨_, _, ⟨rfl, rfl⟩, runs_pure.2 ⟨rfl, rfl⟩⟩
  have run := resolve_run unknown outlined parts
  have shapeless (k : Model) (hk : Runs (resolve document self site v) p ⟨.model k, []⟩ p) :
      Parameter.isObjectShaped k = false := by
    rw [← Bool.not_eq_true]
    intro shaped
    have := resolve_shape hk rfl shaped
    rw [bare.isStructured] at this
    cases this
  rw [resolvePlain_of_primitive bare.typed] at run
  split at run
  · exact ⟨_, run, ⟨rfl, rfl, blank, rfl⟩, shapeless _ run⟩
  · exact ⟨_, run, ⟨rfl, rfl, blank, independent⟩, shapeless _ run⟩

/-- A node with the form of a schema is resolved as one, one level further down. -/
theorem resolveWithin_run {depth : Nat} {out : Outcome} (object : v.isObject = true)
    (form : formOf v site.hint = .schema)
    (h : Runs (resolve document (resolveWithin document depth) site v) p out q) :
    Runs (resolveWithin document (depth + 1) site v) p out q := by
  simp only [resolveWithin, resolveForm, object, form, Bool.not_true, Bool.false_eq_true, if_false]
  exact h

/-- A node is resolved at least two levels deep. -/
theorem depthBound_eq (document v : Json) : ∃ depth, depthBound document v = depth + 2 := by
  refine ⟨depthBound document v - 2, (Nat.sub_add_cancel ?_).symm⟩
  exact Nat.le_mul_of_pos_left 2 (by omega) |>.trans (Nat.mul_le_mul_left _ (by omega))

/-- A list of a bare schema takes it over. -/
theorem Bare.list_run (bare : Bare (v.get "items")) (document : Json) (depth : Nat)
    (array : (declaredType v).1 = some "array") (described : v.Described)
    (items : (v.get "items").Described)
    (unknown : known site p.registry v = none)
    (unlisted : known (itemSite site p.registry) p.registry (v.get "items") = none) :
    ∃ m, Runs (resolve document (resolveWithin document (depth + 1)) site v) p ⟨.model m, []⟩ p ∧
      Copies m (v.get "items") (some true) ∧ Parameter.isObjectShaped m = false := by
  obtain ⟨start, outlined⟩ := outline_run site described p
  obtain ⟨-, named, -, -, independent, -⟩ := outline_runs outlined
  obtain ⟨item, run, copies, -⟩ := bare.run document (resolveWithin document depth) items unlisted
  have run := resolveWithin_run bare.isObject bare.form run
  have nonNull : (v.get "items").nonNull = some (v.get "items") := by
    cases hv : v.get "items" with
    | null => rw [hv] at bare; cases bare.isObject
    | _ => rfl
  have typed : isPrimitiveType item.type = true := copies.type ▸ bare.typed
  have parts : Runs (resolveParts document (resolveWithin document (depth + 1)) site v start) p
      ({ start with
        array := some true
        type := item.type
        subtype := item.subtype
        enum := if item.enum.isNull then start.enum else item.enum }, []) p := by
    simp only [resolveParts, if_pos array, resolveArray, nonNull, runs_bind, runs_freeName, named]
    refine ⟨_, _, ⟨rfl, rfl⟩, _, _, run, ?_⟩
    dsimp only
    rw [if_pos typed]
    exact runs_pure.2 ⟨rfl, rfl⟩
  have run := resolve_run unknown outlined parts
  split at run
  · exact ⟨_, run, ⟨copies.type, copies.subtype, rfl, rfl⟩, rfl⟩
  · exact ⟨_, run, ⟨copies.type, copies.subtype, rfl, independent⟩, rfl⟩

/-- A simple schema is copied unless its content is registered. -/
theorem Simple.run (simple : Simple schema value array) (document : Json) (described : schema.Described)
    (inner : value.Described) (hint : site.hint = none) (unknown : known site p.registry schema = none)
    (unlisted : known site p.registry value = none) :
    ∃ m, Runs (resolveNode document site schema) p ⟨.model m, []⟩ p ∧ Copies m value array ∧
      Parameter.isObjectShaped m = false := by
  obtain ⟨depth, deep⟩ := depthBound_eq document schema
  have form := hint ▸ simple.form
  simp only [resolveNode, deep]
  cases simple with
  | bare bare =>
    have bare := bare_of_isBare bare
    obtain ⟨m, run, copies⟩ := bare.run document (resolveWithin document (depth + 1)) described unknown
    exact ⟨m, resolveWithin_run bare.isObject form run, copies⟩
  | list _ array items =>
    have object : schema.isObject = true := by
      cases hs : schema with
      | obj _ => rfl
      | _ => rw [hs] at array; cases array
    obtain ⟨m, run, copies⟩ := (bare_of_isBare items).list_run document depth array described inner
      unknown unlisted
    exact ⟨m, resolveWithin_run object form run, copies⟩

end Schema

namespace Parameter

open Schema

/-- The schema of a parameter stands in it, or in the first of its media types that has one. -/
inductive Shows (node : Json) : Json → Prop
  | schema {entries : List (String × Json)} (h : node.get "schema" = .obj entries) :
    Shows node (.obj entries)
  | content {media : List (String × Json)} {schema : Json}
    (none : (node.get "schema").isObject = false) (h : node.get "content" = .obj media)
    (first : (media.map fun m => m.2.get "schema").find? Json.isObject = some schema) :
    Shows node schema

/-- A parameter that can be read: it has a place, and a name unless one is given. -/
structure Declared (given : String) (node : Json) : Prop where
  place : ((node.get "in").text?.bind ParameterPlace.ofWord?).isSome
  named : given ≠ "" ∨ node.has "name" = true
  described : node.Described

variable {document node schema value : Json} {array : Option Bool} {scope : Scope} {p q : Progress}
  {given : String} {m : Model}

theorem Declared.isObject (h : Declared given node) : node.isObject = true := by
  have place := h.place
  cases node with
  | obj _ => rfl
  | _ => cases place

theorem Shows.run (h : Shows node schema) (object : node.isObject = true) (p : Progress) :
    Runs (schemaOf node) p (some schema) p := by
  simp only [schemaOf, object, Bool.not_true, Bool.false_eq_true, if_false]
  cases h with
  | schema h =>
    rw [h]
    exact runs_pure.2 ⟨rfl, rfl⟩
  | @content media _ none h first =>
    have truthy : (node.get "content").truthy = true := by
      rw [h]
      cases media with
      | nil => cases first
      | cons _ _ => rfl
    have found : Runs (mediaOf node) p (media.map Prod.snd) p := by
      simp only [mediaOf, truthy, if_true, runs_bind]
      exact ⟨media, p, by rw [h]; exact runs_pure.2 ⟨rfl, rfl⟩, runs_pure.2 ⟨rfl, rfl⟩⟩
    split
    · next hs =>
      rw [hs] at none
      cases none
    · simp only [runs_bind]
      exact ⟨_, p, found, runs_pure.2 ⟨by rw [List.map_map]; exact first.symm, rfl⟩⟩

theorem Declared.place_run (h : Declared given node) (scope : Scope) (p : Progress) :
    ∃ place, Runs (placeOf scope node) p place p := by
  obtain ⟨place, there⟩ := Option.isSome_iff_exists.1 h.place
  simp only [placeOf, h.isObject, there, Bool.not_true, Bool.false_eq_true, if_false]
  exact ⟨place, runs_pure.2 ⟨rfl, rfl⟩⟩

theorem Declared.name_run (h : Declared given node) (place : ParameterPlace) (p : Progress) :
    ∃ name, Runs (nameFor given place node) p name p := by
  simp only [nameFor]
  split
  · exact ⟨given, runs_pure.2 ⟨rfl, rfl⟩⟩
  · next empty =>
    obtain ⟨v, hv⟩ := Option.isSome_iff_exists.1 (h.named.resolve_left (by simpa using empty))
    rw [hv]
    exact ⟨_, runs_pure.2 ⟨rfl, rfl⟩⟩

/-- A parameter takes over what its schema is copied into. -/
theorem Declared.run {self : Resolver} (declared : Declared given node) (shows : Shows node schema)
    (values : ∀ name, ∃ parsed, Runs (self (.ofOwner scope (name ++ "Schema")) schema) p
      ⟨.model parsed, []⟩ p ∧ Copies parsed value array ∧ isObjectShaped parsed = false) :
    ∃ m, Runs (resolve self scope given node) p m p ∧ Copies m value array := by
  obtain ⟨place, placed⟩ := declared.place_run scope p
  obtain ⟨name, named⟩ := declared.name_run place p
  obtain ⟨text, fits⟩ := declared.described
  let start : Model := { Model.blank name place.kind with
    source := node
    location := some (scope.located name)
    description := text }
  obtain ⟨parsed, run, copies, shapeless⟩ := values name
  have taken : Runs (resolveValues self scope (some schema) start) p (takesOver start parsed) p := by
    simp only [resolveValues, runs_bind]
    refine ⟨_, _, run, ?_⟩
    simp only [shapeless, Bool.false_eq_true, if_false]
    exact runs_pure.2 ⟨rfl, rfl⟩
  let marked : Model := { takesOver start parsed with
    validations := Dict.put (takesOver start parsed).validations "required" (.bool true) }
  have ending {m : Model} (h : Runs (if (node.get "required").truthy then pure marked
      else pure (takesOver start parsed)) p m p) : Runs (resolve self scope given node) p m p := by
    simp only [resolve, runs_bind]
    exact ⟨_, _, placed, _, _, named, _, _, runs_fit.2 ⟨fits, rfl⟩, _, _,
      shows.run declared.isObject p, _, _, taken, h⟩
  obtain ⟨type, subtype, isArray, independent⟩ := copies
  cases required : (node.get "required").truthy with
  | true =>
    rw [required] at ending
    exact ⟨marked, ending (runs_pure.2 ⟨rfl, rfl⟩), type, subtype, isArray, independent⟩
  | false =>
    rw [required] at ending
    exact ⟨takesOver start parsed, ending (runs_pure.2 ⟨rfl, rfl⟩), type, subtype, isArray, independent⟩

end Parameter

variable {document node schema value : Json} {array : Option Bool} {scope : Scope} {p : Progress}
  {given : String}

/-- A parameter copies a primitive schema in place, and a list of one, in every state of a walk. Only
the content of the list may be registered while operations are resolved, and then the document has
an operation with a payload that is a list of such lists. -/
theorem inline_parameters_copied (declared : Parameter.Declared given node)
    (shows : Parameter.Shows node schema) (simple : Schema.Simple schema value array)
    (described : schema.Described) (inner : value.Described)
    (walking : scope.space = .structural → p.Walking document) :
    ((scope.space = .structural → array = some true → p.registry.findStructural schema = none) →
      ∃ m, Runs (Parameter.resolve (resolveNode document) scope given node) p m p ∧
        Schema.Copies m value array) ∧
    ∀ {τ : Type} {g g' : Graph τ}, Graph.Accepts g document g' → Midway document g'.registry p →
      p.registry.findStructural schema ≠ none →
      ∃ visits, Graph.Account document g' visits ∧ array = some true ∧
        ∃ c ∈ visits.flatMap Visit.carried, ∃ items, Payload.registered? c.schema = some items ∧
          Json.Alike schema items := by
  constructor
  · intro unregistered
    refine declared.run shows fun name => ?_
    have unknown {v w : Json} {a : Option Bool} (simple : Schema.Simple v w a)
        (free : scope.space = .structural → a = some true → p.registry.findStructural v = none) :
        Schema.known (.ofOwner scope (name ++ "Schema")) p.registry v = none := by
      unfold Schema.known
      split
      · next structural =>
        by_contra known
        obtain ⟨list, -⟩ := simple.payload (walking structural).admits known
        exact known (free structural list)
      · rfl
    exact simple.run document described inner rfl (unknown simple unregistered) (unknown simple.inner fun _ => nofun)
  · intro τ g g' accepted mid known
    obtain ⟨visits, account⟩ := accepted.account
    obtain ⟨list, _, items, ⟨c, hc, rfl⟩, registers, alike⟩ :=
      simple.payload (account.admits.of_grows mid.grows) known
    exact ⟨visits, account, list, c, hc, items, registers, alike⟩

/-- A schema of texts. -/
def texts : Json := .obj [("type", .str "string")]

/-- A parameter with a list of texts. -/
def ids : Json :=
  .obj [("name", .str "ids"), ("in", .str "query"), ("schema", (listsOf texts).get "items")]

/-- A document with an operation that answers with lists of lists of texts, and one that is asked for a
list of texts. -/
def sharing : Json :=
  .obj [("openapi", .str "3.0.0"), ("paths", .obj [
    ("/a", .obj [("get", .obj [("responses", .obj [("200", .obj [("content", .obj [
      ("application/json", .obj [("schema", listsOf texts)])])])])])]),
    ("/b", .obj [("get", .obj [("parameters", .arr [ids])])])])]

theorem sharing.walking : Progress.start.Walking sharing := ⟨.start, rfl, .refl _⟩

theorem ids.declared : Parameter.Declared "" ids := ⟨rfl, .inr rfl, _, rfl⟩

theorem ids.shows : Parameter.Shows ids ((listsOf texts).get "items") := .schema rfl

theorem ids.simple : Schema.Simple ((listsOf texts).get "items") texts (some true) :=
  .list (by decide) (by decide) (by decide)

/-- Before the payload of the first operation is resolved, the parameter of the second one copies its
list of texts. -/
theorem inline_parameters_copied_ids : ∃ m,
    Runs (Parameter.resolve (resolveNode sharing) (Scope.root.phase .structural) "" ids) .start m
      .start ∧ m.type = some "string" ∧ m.array = some true ∧ m.dependencies = [] := by
  have copied : ∃ m, Runs (Parameter.resolve (resolveNode sharing) (Scope.root.phase .structural) "" ids)
      .start m .start ∧ Schema.Copies m texts (some true) :=
    (inline_parameters_copied ids.declared ids.shows ids.simple ⟨_, rfl⟩ ⟨_, rfl⟩
      fun _ => sharing.walking).1 fun _ _ => rfl
  obtain ⟨m, run, type, -, isArray, independent⟩ := copied
  exact ⟨m, run, type, isArray, independent⟩

theorem runs_unique {α : Type} {x : Resolving α} {a b : α} {p q s : Progress} (h : Runs x p a q)
    (h' : Runs x p b s) : a = b :=
  Except.ok.inj (Prod.mk.inj (h.symm.trans h')).1

/-- The payload of the first operation registers its lists by their content. -/
theorem sharing.registered : ∃ p : Progress, p.Walking sharing ∧
    ∃ ref, p.registry.findStructural ((listsOf texts).get "items") = some ref := by
  let scope := (Scope.root.phase .structural).down ["items"]
  obtain ⟨m, run, -⟩ : ∃ m, Runs (resolveNode sharing (.ofOwner scope "AGetApplicationJson200")
      ((listsOf texts).get "items")) .start ⟨.model m, []⟩ .start ∧
      Schema.Copies m texts (some true) ∧ Parameter.isObjectShaped m = false :=
    ids.simple.run sharing ⟨_, rfl⟩ ⟨_, rfl⟩ rfl rfl rfl
  let content := ((listsOf texts).get "items").canonical
  let r := (Registry.empty.register .structural content m).2
  have payload : Runs (Payload.resolve (resolveNode sharing) (Scope.root.phase .structural)
      "AGetApplicationJson200" (listsOf texts)) .start (.ofRef (.named (Registry.empty.freeName m.name)) (some true))
      { Progress.start with registry := r } := by
    change Runs (Payload.resolveRegistered _ scope _ ((listsOf texts).get "items") _) _ _ _
    simp only [Payload.resolveRegistered, runs_bind, runs_assertContent]
    exact ⟨_, _, run, _, _, ⟨_, rfl, rfl⟩, runs_pure.2 ⟨rfl, rfl⟩⟩
  have name : r.structural.lookup content = some (Registry.empty.freeName m.name) :=
    Dict.lookup_put_self _ _ _
  have model : r.contains (Registry.empty.freeName m.name) = true :=
    contains_iff.2 ⟨_, Dict.lookup_put_self _ _ _⟩
  refine ⟨_, ⟨.start, rfl, fun T => ⟨_, Traversal.resolvePayload T.sound_resolveNode (by decide)
    payload⟩⟩, .named (Registry.empty.freeName m.name), ?_⟩
  rw [findStructural, name]
  exact if_pos model

/-- From then on the parameter refers to what the payload registered. -/
theorem inline_parameter_shared :
    ¬ ∀ p : Progress, p.Walking sharing → ∃ m,
      Runs (Parameter.resolve (resolveNode sharing) (Scope.root.phase .structural) "" ids) p m p ∧
        m.type = some "string" ∧ m.array = some true ∧ m.dependencies = [] := by
  intro copied
  obtain ⟨p, walking, ref, known⟩ := sharing.registered
  obtain ⟨m, run, -, -, independent⟩ := copied p walking
  obtain ⟨start, schema, mid, -, -, -, -, -, -, -, -, hs, hv, hm⟩ := Parameter.resolve_runs run
  obtain rfl := runs_unique hs (ids.shows.run rfl p)
  have dependencies : m.dependencies = mid.dependencies := by
    obtain rfl | rfl := hm <;> rfl
  have found : Runs (resolveNode sharing (.ofOwner (Scope.root.phase .structural) (start.name ++ "Schema"))
      ((listsOf texts).get "items")) p ⟨.ref ref, []⟩ p := by
    obtain ⟨depth, deep⟩ := Schema.depthBound_eq sharing ((listsOf texts).get "items")
    rw [resolveNode, deep]
    exact Schema.resolveWithin_run rfl ids.simple.form (Schema.resolve_known_run known)
  obtain ⟨none, -⟩ | ⟨v, out, s, hv', ho, hc⟩ := Parameter.resolveValues_runs hv
  · cases none
  obtain rfl := Option.some.inj hv'
  obtain rfl := runs_unique ho found
  obtain ⟨_, same, -, rfl⟩ | ⟨_, _, _, model, -⟩ | ⟨_, model, -⟩ := hc
  · rw [dependencies] at independent
    cases independent
  · cases model
  · cases model

end ApiGraph
