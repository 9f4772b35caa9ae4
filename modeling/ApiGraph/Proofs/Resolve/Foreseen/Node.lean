import ApiGraph.Proofs.Resolve.Foreseen
import ApiGraph.Proofs.Termination

/-! The resolution of nodes fails only as is foreseen. Forms refer to each other through the
resolver that they are given; from one that is safe each form makes one that is safe. -/

namespace ApiGraph

open Resolving Registry
open Traversal (has_asParameter)

/-- What a node may become: a worded model that is made from it, the handle of its reference, or the
handle to a registered model with the content of a schema. -/
inductive Settles (site : Site) (node : Json) : Outcome → Registry → Prop
  | model {m : Model} {needs : List (Link Model)} {r : Registry} (plain : node.has "$ref" = false)
    (object : node.isObject = true) (source : m.source = node) (worded : m.Worded) :
    Settles site node ⟨.model m, needs⟩ r
  | reference {ref : Ref} {r : Registry} (isRef : node.has "$ref" = true) (leads : r.Leads ref) :
    Settles site node ⟨.ref ref, []⟩ r
  | known {ref : Ref} {r : Registry} (object : node.isObject = true)
    (schema : Schema.formOf node site.hint = .schema) : Settles site node ⟨.ref ref, []⟩ r

/-- Nodes of the document are resolved safely. -/
def Resolver.Safe (document : Json) (self : Resolver) : Prop :=
  ∀ site node, Drawn document node → ApiGraph.Safe document (Settles site node) (self site node)

variable {document node : Json} {self : Resolver} {scope : Scope} {site : Site} {m : Model}
  {r s : Registry} {out : Outcome} {name : String}

/-- The model that a node has become can be registered. -/
theorem Settles.sourced (h : Settles site node out r) (drawn : Drawn document node) :
    ∀ m, out.result = .model m → m.Sourced document ∧ m.source.isObject = true := by
  intro m hm
  cases h with
  | model _ object source worded =>
    obtain rfl := Link.model.inj hm
    rw [source]
    exact ⟨worded.sourced (source ▸ object) (source ▸ drawn), object⟩
  | reference => cases hm
  | known => cases hm

namespace Shape

theorem fits_optional_text {v : Json} (h : v.isOptionalText = true) : (optional text v).Fits := by
  cases v with
  | null => exact ⟨none, rfl⟩
  | str s => exact ⟨some s, rfl⟩
  | _ => cases h

theorem fits_withDefault_text {key : String} (h : (node.get key).isOptionalText = true) :
    (withDefault [key] none (optional text) node).Fits := by
  unfold withDefault field under?
  cases hk : node.get? key with
  | none => exact ⟨none, rfl⟩
  | some v =>
    rw [Json.get, hk] at h
    exact Checked.fits_under.2 (fits_optional_text h)

end Shape

theorem Json.Fit.description (h : node.Fit) : (descriptionOf node).Fits :=
  Shape.fits_withDefault_text (h.text _ (by decide))

theorem lookup_of_register {key : String} {found : Resolved}
    (h : r.register .named key m = (found, s)) : s.named.lookup key = some found.ref.name := by
  unfold register at h
  split at h
  · next known hi =>
    split at h
    · obtain ⟨rfl, rfl⟩ := Prod.mk.inj h
      exact hi
    · obtain ⟨rfl, rfl⟩ := Prod.mk.inj h
      exact hi
  · obtain ⟨rfl, rfl⟩ := Prod.mk.inj h
    exact Dict.lookup_put_self _ _ _

section

variable (hself : self.Safe document)
include hself

/-- A reference that is followed stands for the name of its handle from then on. -/
theorem safe_followReference {text : String} (here : Pointer.isLocal text = true)
    (target : ∀ v, Pointer.resolve document text = some v → Drawn document v) :
    Safe document (fun ref r => r.Leads ref) (followReference document self scope text) := by
  unfold followReference
  split
  · exact .fail rfl
  next v leads =>
  have drawn : Drawn document v := target v leads
  refine Safe.registry.bind fun r _ hr => ?_
  refine (Safe.setRegistry (hr.2.reserve text _)).bind fun _ _ _ => ?_
  refine (hself _ _ drawn).bind fun out _ settled => ?_
  have sourced := settled.sourced drawn
  cases hout : out.result with
  | ref found =>
    dsimp only
    intro p hp
    cases remote : found.isRemote with
    | true => exact ⟨hp, .inl remote⟩
    | false =>
      refine ⟨hp.of_same rfl rfl (List.Subset.refl _), .inr ⟨text, .named found.name, here, ?_, ?_⟩⟩
      · exact lookupRef_of_named (Dict.lookup_put_self _ _ _)
      · rfl
  | model m =>
    have plain : v.has "$ref" = false := by
      cases settled with
      | model plain => exact plain
      | _ => cases hout
    have registers : Safe document Anything
        (Resolving.assert v (.model m) (some text) .named scope.location) :=
      .assert fun k hk => ⟨(sourced k (hout.trans hk)).1, fun hs => by cases hs⟩
    refine registers.bind_run fun found p q run hq _ => ⟨hq, .inr ?_⟩
    obtain ⟨t, registered, rfl⟩ := runs_assert.1 run
    have named := lookup_of_register (assert_model plain registered)
    have key : keyFor .named v m (some text) = text := by
      have full : text ≠ "" := by
        rintro rfl
        cases here
      simp [keyFor, full]
    rw [key] at named
    exact ⟨text, .named found.ref.name, here, lookupRef_of_named named, rfl⟩

theorem safe_resolveReference (h : Drawn document node) (isRef : node.has "$ref" = true) :
    Safe document (fun ref r => r.Leads ref) (resolveReference document self scope node) := by
  unfold resolveReference
  split
  · next text ht =>
    refine .ite (fun _ => .pure fun _ => .inl rfl) fun here => ?_
    have here : Pointer.isLocal text = true := by simpa using here
    refine Safe.registry.bind_run fun r _ q _ hq hr => ?_
    obtain rfl := hr.1
    split
    · next known hk => exact ⟨hq, .inr ⟨text, known, here, hk, rfl⟩⟩
    · have target (v : Json) (hv : Pointer.resolve document text = some v) : Drawn document v :=
        h.target (Json.target?_eq_some.2 ⟨text, ht, hv⟩)
      exact safe_followReference hself here target q hq
  · exact .malformed
  · next none =>
    rw [Json.has, none] at isRef
    cases isRef

namespace Schema

omit hself in
theorem safe_requiredNames (h : node.Fit) : Safe document Anything (requiredNames node) := by
  have plain := h.required
  unfold requiredNames
  split
  · next items hi =>
    rw [hi] at plain
    refine .ite (fun bad => ?_) fun _ => .pure fun _ => trivial
    obtain ⟨v, hv, bad⟩ := List.any_eq_true.1 bad
    have good : v.isScalar = true := List.all_eq_true.1 plain v hv
    cases v <;> simp_all [Json.isScalar]
  · exact .pure fun _ => trivial

omit hself in
theorem safe_outline (h : node.Fit) :
    Safe document (fun m _ => m.Worded ∧ m.source = node) (outline site node) :=
  (Safe.fit h.description).bind fun _ _ _ => .pure fun _ => ⟨⟨rfl, rfl⟩, rfl⟩

theorem safe_member (h : Drawn document node) (name : String) (required : List String) :
    Safe document Anything (resolveMember self scope name required node) := by
  refine (Safe.freeName name).bind fun free _ _ => (hself _ _ h).bind fun out _ _ => ?_
  cases out.result with
  | ref _ => exact .pure fun _ => trivial
  | model m => exact (Safe.claim m.name).bind fun _ _ _ => .pure fun _ => trivial

/-- The model of a part of a schema is worded if the model before was, and is made from the same
node. -/
def Continues (m : Model) (x : Model × List (Link Model)) (_ : Registry) : Prop :=
  x.1.Worded ∧ x.1.source = m.source

theorem safe_array (h : Drawn document node) (hm : m.Worded) :
    Safe document (Continues m) (resolveArray self site node m) := by
  unfold resolveArray
  split
  · exact .malformed
  next items hi =>
  have drawn : Drawn document items := Json.eq_of_nonNull hi ▸ h.value (by decide)
  refine (Safe.freeName _).bind fun _ _ _ => (hself _ _ drawn).bind fun out _ settled => ?_
  cases settled with
  | @model item needs _ _ _ _ worded =>
    refine .ite (fun _ => .pure fun _ => ⟨⟨worded.subtype, ?_⟩, rfl⟩) fun _ => ?_
    · dsimp only
      split
      · exact hm.enum
      · exact worded.enum
    · exact (Safe.claim _).bind fun _ _ _ => .pure fun _ => ⟨⟨hm.subtype, hm.enum⟩, rfl⟩
  | _ => exact .pure fun _ => ⟨⟨hm.subtype, hm.enum⟩, rfl⟩

theorem safe_mapValues (h : Drawn document node) (hm : m.Worded) :
    Safe document (Continues m) (resolveMapValues self site node m) := by
  unfold resolveMapValues
  split
  · exact .pure fun _ => ⟨⟨hm.subtype, hm.enum⟩, rfl⟩
  · next entries he =>
    have drawn : Drawn document (.obj entries) := he ▸ h.value (by decide)
    refine (safe_member hself drawn _ _).bind fun _ _ _ => .pure fun _ => ?_
    exact ⟨⟨hm.subtype, hm.enum⟩, rfl⟩
  · exact .pure fun _ => ⟨hm, rfl⟩

omit hself in
theorem worded_plain (h : node.Fit) (hm : m.Worded) :
    (resolvePlain node m).Worded ∧ (resolvePlain node m).source = m.source := by
  unfold resolvePlain
  split
  · exact ⟨hm, rfl⟩
  · refine ⟨⟨h.text "format" (by decide), ?_⟩, rfl⟩
    dsimp only
    split
    · exact h.enum
    · exact hm.enum

omit hself in
theorem safe_outlineField (h : node.Fit) (name : String) :
    Safe document Anything (outlineField name node) := by
  refine (Safe.fit (Shape.Checked.fits_seq.2 ⟨Shape.Checked.fits_map.2 ?_, h.description⟩)).bind
    fun _ _ _ => .pure fun _ => trivial
  have text := h.text "format" (by decide)
  cases hf : node.get "format" with
  | null => exact ⟨_, rfl⟩
  | str s => exact ⟨_, rfl⟩
  | _ =>
    rw [hf] at text
    cases text

theorem safe_fieldType (h : Drawn document node) (parent : String) (f : Field) :
    Safe document Anything (resolveFieldType document self scope parent node f) := by
  unfold resolveFieldType
  refine .ite (fun isRef => ?_) fun _ => .ite (fun _ => .pure fun _ => trivial) fun _ =>
    .ite (fun _ => ?_) fun _ => .pure fun _ => trivial
  · exact (safe_resolveReference hself h isRef).bind fun _ _ _ => .pure fun _ => trivial
  · split
    · exact .malformed
    · next target ht =>
      have drawn : Drawn document target := by
        split at ht
        · exact Json.eq_of_nonNull ht ▸ h.value (by decide)
        · exact Option.some.inj ht ▸ h
      exact (safe_member hself drawn _ _).bind fun _ _ _ => .pure fun _ => trivial

variable (orderly : document.Orderly)
include orderly

theorem safe_field (h : Drawn document node) (parent : String) (required : List String)
    (name : String) :
    Safe document Anything (resolveField document self scope parent required name node) := by
  unfold resolveField
  refine .ite (fun _ => .malformed_bind) fun _ => ?_
  refine (safe_outlineField (h.fit orderly) name).bind fun start _ _ => ?_
  exact (safe_fieldType hself h parent start).bind fun _ _ _ => .pure fun _ => trivial

theorem safe_fields (parent : String) (required : List String) {entries : List (String × Json)}
    (h : ∀ entry ∈ entries, Drawn document entry.2) :
    Safe document Anything (resolveFields document self scope parent required entries) := by
  induction entries with
  | nil => exact .pure fun _ => trivial
  | cons entry rest ih =>
    obtain ⟨first, others⟩ := List.forall_mem_cons.1 h
    refine (safe_field hself orderly first parent required entry.1).bind fun _ _ _ => ?_
    exact (ih others).bind fun _ _ _ => .pure fun _ => trivial

theorem safe_properties (h : Drawn document node) (required : List String) :
    Safe document Anything (resolveProperties document self site required node m) := by
  unfold resolveProperties
  refine .ite (fun _ => .pure fun _ => trivial) fun _ => ?_
  split
  · next entries he =>
    exact safe_fields hself orderly _ _ fun entry hv => h.member (by decide) he hv
  · exact .malformed

omit orderly in
theorem safe_branches (key name : String) (required : List String) (i : Nat) {branches : List Json}
    (h : ∀ branch ∈ branches, Drawn document branch) :
    Safe document Anything (resolveBranches self scope key name required i branches) := by
  induction branches generalizing i with
  | nil => exact .pure fun _ => trivial
  | cons branch rest ih =>
    obtain ⟨first, others⟩ := List.forall_mem_cons.1 h
    refine (safe_member hself first _ _).bind fun out _ _ => ?_
    exact (ih _ others).bind fun _ _ _ => .pure fun _ => trivial

omit orderly in
theorem safe_combinator (h : Drawn document node) (required : List String) {key : String}
    (hk : key ∈ Json.listKeys) (label : String) :
    Safe document Anything (resolveCombinator self site required node m key label) := by
  unfold resolveCombinator
  split
  · exact .pure fun _ => trivial
  · next items hi =>
    have drawn : ∀ branch ∈ items, Drawn document branch := fun branch hb =>
      h.item hk (by rw [hi]; rfl) hb
    exact (safe_branches hself _ _ required 0 drawn).bind fun _ _ _ => .pure fun _ => trivial
  · exact .malformed

theorem safe_composite (h : Drawn document node) (hm : m.Worded) :
    Safe document (Continues m) (resolveComposite document self site node m) := by
  refine (safe_requiredNames (h.fit orderly)).bind fun required _ _ => ?_
  refine (safe_properties hself orderly h _).bind fun fields _ _ => ?_
  refine (safe_combinator hself h _ (by decide) _).bind fun allOf _ _ => ?_
  refine (safe_combinator hself h _ (by decide) _).bind fun anyOf _ _ => ?_
  refine (safe_combinator hself h _ (by decide) _).bind fun oneOf _ _ => .pure fun _ => ?_
  exact ⟨⟨hm.subtype, hm.enum⟩, rfl⟩

theorem safe_parts (h : Drawn document node) (hm : m.Worded) :
    Safe document (Continues m) (resolveParts document self site node m) := by
  unfold resolveParts
  refine .ite (fun _ => safe_array hself h hm) fun _ => ?_
  refine (safe_mapValues hself h hm).bind fun x _ hx =>
    .ite (fun _ => ?_) fun _ => .pure fun _ => ?_
  · refine (safe_composite hself orderly h hx.1).bind fun _ _ hy => .pure fun _ => ?_
    exact ⟨hy.1, hy.2.trans hx.2⟩
  · obtain ⟨worded, source⟩ := worded_plain (h.fit orderly) hx.1
    exact ⟨worded, source.trans hx.2⟩

theorem safe_resolve (h : Drawn document node) (object : node.isObject = true)
    (plain : node.has "$ref" = false) (schema : formOf node site.hint = .schema) :
    Safe document (Settles site node) (resolve document self site node) := by
  refine Safe.registry.bind fun r _ _ => ?_
  split
  · exact .pure fun _ => .known object schema
  · refine (safe_outline (h.fit orderly)).bind fun start _ hs => ?_
    refine (safe_parts hself orderly h hs.1).bind fun x _ hx => ?_
    have made : x.1.source = node := hx.2.trans hs.2
    refine .ite (fun _ => .pure fun _ => ?_) fun _ => .pure fun _ => .model plain object made hx.1
    exact .model plain object made ⟨hx.1.subtype, hx.1.enum⟩

end Schema

namespace Parameter

omit hself in
theorem safe_placeOf (object : node.isObject = true) :
    Safe document Anything (placeOf scope node) := by
  unfold placeOf
  refine .ite (fun other => ?_) fun _ => ?_
  · simp [object] at other
  · split
    · exact .pure fun _ => trivial
    · exact .malformed

omit hself in
theorem safe_nameFor {given : String} (place : ParameterPlace)
    (named : given ≠ "" ∨ node.has "name" = true) :
    Safe document Anything (nameFor given place node) := by
  unfold nameFor
  refine .ite (fun _ => .pure fun _ => trivial) fun empty => ?_
  split
  · exact .pure fun _ => trivial
  · next none =>
    rcases named with full | named
    · simp [full] at empty
    · rw [Json.has, none] at named
      cases named

omit hself in
/-- The media types of a parameter have schemas that are nodes. -/
theorem safe_mediaOf (h : Drawn document node) (orderly : document.Orderly) :
    Safe document (fun media _ => ∀ v ∈ media, Drawn document (v.get "schema")) (mediaOf node) := by
  unfold mediaOf
  refine .ite (fun truthy => ?_) fun _ => .pure fun _ v hv => by cases hv
  have object := (h.fit orderly).content truthy
  cases hc : node.get "content" with
  | obj entries =>
    refine .pure fun _ v hv => ?_
    obtain ⟨entry, he, rfl⟩ := List.mem_map.1 hv
    exact h.media hc he
  | _ =>
    rw [hc] at object
    cases object

omit hself in
theorem safe_schemaOf (h : Drawn document node) (object : node.isObject = true)
    (orderly : document.Orderly) :
    Safe document (fun schema _ => ∀ v, schema = some v → Drawn document v) (schemaOf node) := by
  unfold schemaOf
  refine .ite (fun other => ?_) fun _ => ?_
  · simp [object] at other
  split
  · next entries he =>
    refine .pure fun _ v hv => ?_
    obtain rfl := Option.some.inj hv
    exact he ▸ h.value (by decide)
  · refine (safe_mediaOf h orderly).map fun media _ hm v hv => ?_
    obtain ⟨media, found, rfl⟩ := List.mem_map.1 (List.mem_of_find?_eq_some hv)
    exact hm media found

theorem safe_values {schema : Option Json} (h : ∀ v, schema = some v → Drawn document v)
    (hm : m.Worded) :
    Safe document (fun k _ => k.Worded ∧ k.source = m.source)
      (resolveValues self scope schema m) := by
  unfold resolveValues
  split
  · exact .pure fun _ => ⟨hm, rfl⟩
  next v =>
  refine (hself _ _ (h v rfl)).bind fun out _ settled => ?_
  have sourced := settled.sourced (h v rfl)
  split
  · exact .pure fun _ => ⟨⟨rfl, hm.enum⟩, rfl⟩
  · next parsed hp =>
    refine .ite (fun _ => ?_) fun _ => .pure fun _ => ?_
    · refine (Safe.assert fun k hk => ?_).bind fun _ _ _ => .pure fun _ => ⟨⟨rfl, hm.enum⟩, rfl⟩
      exact ⟨(sourced k hk).1, fun _ => (sourced k hk).2⟩
    · have worded := (sourced parsed hp).1.toWorded
      exact ⟨⟨worded.subtype, worded.enum⟩, rfl⟩

variable (orderly : document.Orderly)
include orderly

/-- A parameter becomes a worded model that is made from its node. -/
theorem safe_resolve (h : Drawn document node) (object : node.isObject = true) {given : String}
    (named : given ≠ "" ∨ node.has "name" = true) :
    Safe document (fun m _ => m.Worded ∧ m.source = node) (resolve self scope given node) := by
  refine (safe_placeOf object).bind fun place _ _ => ?_
  refine (safe_nameFor place named).bind fun name _ _ => ?_
  refine (Safe.fit (h.fit orderly).description).bind fun description _ _ => ?_
  refine (safe_schemaOf h object orderly).bind fun schema _ hs => ?_
  refine (safe_values hself hs ⟨rfl, rfl⟩).bind fun m _ hm => ?_
  exact .ite (fun _ => .pure fun _ => ⟨⟨hm.1.subtype, hm.1.enum⟩, hm.2⟩) fun _ => .pure fun _ => hm

end Parameter

namespace Header

variable (orderly : document.Orderly)
include orderly

theorem safe_resolve (h : Drawn document node) (name : String) :
    Safe document Anything (resolve document self scope name node) := by
  unfold resolve
  split
  · next entries =>
    refine .ite (fun isRef => (safe_resolveReference hself h isRef).ends) fun _ => ?_
    have drawn := h.asParameter name
    have named : (asParameter name entries).has "name" = true := by
      rw [has_asParameter]
      rfl
    refine (Parameter.safe_resolve hself orderly drawn rfl (.inr named)).bind fun m _ hm => ?_
    refine (Safe.assert fun k hk => ?_).bind fun _ _ _ => .pure fun _ => trivial
    obtain rfl := Link.model.inj hk
    exact ⟨hm.1.sourced (hm.2 ▸ rfl) (hm.2 ▸ drawn), fun _ => hm.2 ▸ rfl⟩
  · exact .malformed

theorem safe_each {entries : List (String × Json)}
    (h : ∀ entry ∈ entries, Drawn document entry.2) :
    Safe document Anything (resolveEach document self scope entries) := by
  induction entries with
  | nil => exact .pure fun _ => trivial
  | cons entry rest ih =>
    obtain ⟨first, others⟩ := List.forall_mem_cons.1 h
    refine (safe_resolve hself orderly first entry.1).bind fun _ _ _ => ?_
    exact (ih others).bind fun _ _ _ => .pure fun _ => trivial

theorem safe_all (h : Drawn document node) :
    Safe document Anything (resolveAll document self scope (node.get "headers")) := by
  unfold resolveAll
  refine .ite (fun _ => .pure fun _ => trivial) fun _ => ?_
  split
  · next entries he =>
    exact safe_each hself orderly fun entry hv => h.member (by decide) he hv
  · exact .malformed

theorem safe_holder (h : Drawn document node) (kind : Kind) (name : String) :
    Safe document (fun m _ => m.Worded ∧ m.source = node)
      (resolveHolder document self scope kind name node) :=
  (Safe.fit (h.fit orderly).description).bind fun _ _ _ =>
    (safe_all hself orderly h).bind fun _ _ _ => .pure fun _ => ⟨⟨rfl, rfl⟩, rfl⟩

end Header

end

theorem safe_securityScheme (h : node.Fit) {hint : Option Schema.Form}
    (hf : Schema.formOf node hint = .securityScheme) (given : String) :
    Safe document (fun m _ => m.Worded ∧ m.source = node)
      (resolveSecurityScheme scope given node) := by
  obtain ⟨type, ht, -⟩ := Schema.securityType_of_formOf hf
  unfold resolveSecurityScheme
  rw [ht]
  have named : Safe document Anything (securitySchemeName given (.str type)) :=
    .ite (fun _ => .pure fun _ => trivial) fun _ => .pure fun _ => trivial
  refine named.bind fun name _ _ => (Safe.fit ?_).bind fun _ _ _ => .pure fun _ => ⟨⟨rfl, rfl⟩, rfl⟩
  exact Shape.Checked.fits_seq.2 ⟨⟨_, rfl⟩, h.description⟩

theorem safe_resolveForm (hself : self.Safe document) (orderly : document.Orderly) :
    (resolveForm document self).Safe document := by
  intro site node h
  refine .ite (fun _ => .malformed_bind) fun object => ?_
  have object : node.isObject = true := by simpa using object
  have model {resolve : Resolving Model} (plain : node.has "$ref" = false)
      (hr : Safe document (fun m _ => m.Worded ∧ m.source = node) resolve) :
      Safe document (Settles site node) (resolve >>= fun m => pure (Outcome.own m)) :=
    hr.map fun m _ hm => .model plain object hm.2 hm.1
  split
  · next hf =>
    have isRef := Schema.isRef_of_formOf hf
    exact (safe_resolveReference hself h isRef).map fun ref _ leads => .reference isRef leads
  · next hf => exact model (Schema.plain_of_formOf hf nofun) (safe_securityScheme (h.fit orderly) hf _)
  · next hf =>
    refine model (Schema.plain_of_formOf hf nofun) ?_
    exact Parameter.safe_resolve hself orderly h object (.inr (Schema.named_of_formOf hf))
  · next hf =>
    exact model (Schema.plain_of_formOf hf nofun) (Header.safe_holder hself orderly h _ _)
  · next hf =>
    exact model (Schema.plain_of_formOf hf nofun) (Header.safe_holder hself orderly h _ _)
  · next hf => exact Schema.safe_resolve hself orderly h object (Schema.plain_of_formOf hf nofun) hf

theorem safe_unrolled {bottom : Resolver} (hb : bottom.Safe document) (orderly : document.Orderly)
    (depth : Nat) : (unrolled document bottom depth).Safe document := by
  induction depth with
  | zero => exact hb
  | succ depth ih => exact safe_resolveForm ih orderly

/-- The nodes of an orderly document are resolved safely. No run comes to the bottom, so that it
does not matter how it fails there. -/
theorem safe_resolveNode (orderly : document.Orderly) : (resolveNode document).Safe document := by
  intro site node h p hp
  let bottom : Resolver := fun _ _ => fail (.missingReference "" "")
  have hb : bottom.Safe document := fun _ _ _ => .fail rfl
  obtain ⟨-, -, same⟩ := Question.resolved document ⟨site, node, p⟩
  have reply := same bottom 0
  unfold Question.reply at reply
  rw [← reply]
  exact safe_unrolled hb orderly _ site node h p hp

end ApiGraph
