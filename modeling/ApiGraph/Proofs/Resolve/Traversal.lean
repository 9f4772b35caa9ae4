import ApiGraph.Proofs.Resolve.Made
import ApiGraph.Proofs.Resolve.Shaped
import ApiGraph.Proofs.Resolve.Sorted
import ApiGraph.Proofs.Resolve.Titled
import ApiGraph.Proofs.Resolve.Walk
import Mathlib.Tactic.Tauto

/-! Properties of every run of the resolution. A property of registries before and after a run is
given as a `Traversal`: three relations, for nodes, for the parts of a model and for references,
and for each way in which the resolution puts runs together the fact that the relations keep to it.
All runs then have the property, which is proved once. -/

namespace ApiGraph

open Resolving

/-- Whether a name extends the name of an owner, if there is one. -/
def Extending (owner : Option String) (name : String) : Prop :=
  ∀ n, owner = some n → Appends n name ∧ name ≠ n

/-- Whether a name is that of a declared component, or continues it. -/
def Component.Names (document : Json) (name : String) : Prop :=
  ∃ e ∈ listed document, Appends e.name name

/-- A field whose name contributes nothing to the name of the model that it holds. -/
def Field.isNameless (f : Field) : Prop :=
  Text.keepWords (Naming.upperFirst f.name.toList) = []

/-- A site whose name is not empty, unless the empty name is taken or does not matter. -/
def Site.IsSettled (site : Site) (node : Json) (r : Registry) : Prop :=
  site.name = "" → "" ∈ r.taken ∨ Schema.formOf node site.hint ≠ .schema

/-- What is registered by its content outside of any model has an identifier, or is no schema and is
going to get one; inside of a parameter it is the schema of the parameter. -/
def Site.IsTitled (site : Site) (node : Json) : Option String → Prop
  | none => IsIdentifier site.name ∨ site.name = "" ∧ Schema.formOf node site.hint ≠ .schema
  | some parameter => site.name = parameter ++ "Schema"

/-- A node other than a response or a request body. -/
def Site.isOpen (site : Site) : Prop :=
  site.hint ≠ some .response ∧ site.hint ≠ some .requestBody

/-- Why a node may be registered by its content: it has a name and a place, as parameters have, or it
is a reference and finds a model, or it is the schema of a parameter and stands for an object, or it
is what the payload of an operation registers. -/
inductive Warrant (owner : Option String) (v : Json) (link : Link Model) : Prop
  | parameter (outer : owner = none) (named : v.has "name" = true) (placed : v.has "in" = true)
  | reference (refers : v.has "$ref" = true)
  | shaped {m : Model} (model : link = .model m) (shaped : Parameter.isObjectShaped m = true)
  | payload {schema : Json} (outer : owner = none) (registers : Payload.registered? schema = some v)

/-- A property of the runs of a resolution, which the parts of a run hand on to the whole. -/
structure Traversal (document : Json) where
  /-- A node was resolved at a site. -/
  node : Site → Json → Registry → Outcome → Registry → Prop
  /-- Parts were resolved under the name of an owner, and left links and fields. -/
  parts : Option String → Registry → List (Link Model) → List Field → Registry → Prop
  /-- A reference with a text was resolved. -/
  handle : Registry → String → Ref → Registry → Prop
  nothing {owner : Option String} {r : Registry} {fs : List Field} : parts owner r [] fs r
  append {owner : Option String} {r s t : Registry} {links more : List (Link Model)}
    {fs gs : List Field} (first : parts owner r links fs s) (rest : parts owner s more gs t) :
    parts owner r (links ++ more) (fs ++ gs) t
  weaken {owner : Option String} {r s : Registry} {links fewer : List (Link Model)}
    {fs gs : List Field} (whole : parts owner r links fs s) (sub : fewer ⊆ links) (sup : fs ⊆ gs) :
    parts owner r fewer gs s
  member {name wanted : String} {scope : Scope} {required : List String} {v : Json}
    {r s : Registry} {out : Outcome} {fs : List Field} (under : Appends name wanted)
    (nameless : wanted = name → ∃ f ∈ fs, f.isNameless ∧ f.type = some out.result.name)
    (resolved : node ⟨scope, r.freeName wanted, required, false, none⟩ v r out s) :
    parts (some name) r (out.result :: out.needs) fs (s.claimed out.result)
  item {name wanted : String} {scope : Scope} {v : Json} {r s : Registry} {out : Outcome}
    {fs : List Field} (under : Extending (some name) wanted)
    (resolved : node ⟨scope, r.freeName wanted, [], false, none⟩ v r out s) :
    parts (some name) r out.needs fs s
  reference {owner : Option String} {r s : Registry} {text : String} {ref : Ref} {fs : List Field}
    (resolved : handle r text ref s) : parts owner r [.ref ref] fs s
  inner {owner : Option String} {site : Site} {v : Json} {r s : Registry} {out : Outcome}
    {fs : List Field} (under : Extending owner site.name)
    (declared : owner = none → Component.Names document site.name) (settled : site.IsSettled v r)
    (resolved : node site v r out s) : parts owner r out.result.inner fs s
  content {owner : Option String} {site : Site} {v : Json} {r s t : Registry} {out : Outcome}
    {found : Resolved} {location : String} {fs : List Field} (under : Extending owner site.name)
    (titled : site.IsTitled v owner) (keeps : site.owner = true) (settled : site.IsSettled v r)
    (warrant : Warrant owner v out.result)
    (resolved : node site v r out s)
    (registered : s.assert v out.result none .structural location = .ok (found, t)) :
    parts owner r [.ref found.ref] fs t
  gathered {r t : Registry} {scope : Scope} {refs : List Ref} {ms : List Model} {m : Model}
    {found : Resolved} {fs : List Field} (models : Parameter.Gathered r scope.location refs ms)
    (dependencies : m.dependencies = ms.flatMap Model.dependencies) (branches : m.branches = [])
    (made : m.Made) (sourceless : m.source = .null) (identifier : IsIdentifier m.name)
    (registered : r.assert .null (.model m) (some m.name) .named scope.location = .ok (found, t)) :
    parts none r [.ref found.ref] fs t
  model {site : Site} {v : Json} {r s : Registry} {m : Model} {links needs : List (Link Model)}
    (resolved : parts (some m.name) r links m.fields s) (plain : v.has "$ref" = false)
    (made : m.Made) (source : m.source = v) (titled : Titled site.name m.name)
    (unnamed : m.name = "" → Schema.formOf v site.hint = .schema)
    (dependencies : m.dependencies ⊆ links) (branches : m.branches ⊆ links) (passed : needs ⊆ links)
    (shape : Parameter.isObjectShaped m = true →
      Schema.formOf v site.hint = .schema ∧ Schema.isStructured v = true)
    (owned : site.owner = true → needs = [])
    (sorted : m.kind = .schema → m.Sorted
      (fun w link => ∃ site out t owner rest fs, link = out.result ∧ node site w r out t ∧
        parts owner (t.claimed link) rest fs s) (m.dependencies ++ needs)) :
    node site v r ⟨.model m, needs⟩ s
  refers {site : Site} {v : Json} {r s : Registry} {text : String} {ref : Ref}
    (spells : v.get? "$ref" = some (.str text)) (resolved : handle r text ref s) :
    node site v r ⟨.ref ref, []⟩ s
  known {site : Site} {v : Json} {r : Registry} {ref : Ref} (object : v.isObject = true)
    (plain : v.has "$ref" = false) (equal : r.findStructural v = some ref) : node site v r ⟨.ref ref, []⟩ r
  remote {r : Registry} {text : String} (outside : Pointer.isLocal text = false) :
    handle r text (.remote text) r
  declared {r : Registry} {text : String} {ref : Ref} (inside : Pointer.isLocal text = true)
    (found : r.lookupRef text = some ref) : handle r text ref r
  followed {r r' s : Registry} {text : String} {target : Json} {reserved ref : Ref} {scope : Scope}
    {out : Outcome} (new : r.lookupRef text = none)
    (leads : Pointer.resolve document text = some target)
    (reserves : r.reserve text (pointerName text) = (reserved, r'))
    (resolved : node (.ofOwner scope reserved.name) target r' out s) (isRef : out.result = .ref ref) :
    handle r text ref (if ref.isRemote then s else s.redirect text ref.name)
  registered {r r' s t : Registry} {text location : String} {target : Json} {reserved : Ref}
    {scope : Scope} {out : Outcome} {m : Model} {found : Resolved} (new : r.lookupRef text = none)
    (leads : Pointer.resolve document text = some target)
    (reserves : r.reserve text (pointerName text) = (reserved, r'))
    (resolved : node (.ofOwner scope reserved.name) target r' out s) (isModel : out.result = .model m)
    (registers : s.assert target (.model m) (some text) .named location = .ok (found, t)) :
    handle r text found.ref t

theorem Site.isOpen_of_hint {site : Site} (h : site.hint = none) : site.isOpen := by
  simp [Site.isOpen, h]

theorem extending_none {name : String} : Extending none name := nofun

theorem extending_append {name suffix : String} (h : suffix ≠ "")
    (word : suffix.toList.all Text.isWord = true) : Extending (some name) (name ++ suffix) := by
  intro n hn
  obtain rfl := Option.some.inj hn
  refine ⟨.append (List.all_eq_true.1 word), fun he => h ?_⟩
  simpa using congrArg String.toList he

namespace Traversal

variable {document node : Json} {T : Traversal document} {self : Resolver} {scope : Scope}
  {site : Site} {p q : Progress} {name parent wanted : String} {required : List String}
  {m m' : Model} {out : Outcome} {f : Field} {fs gs : List Field} {ref : Ref} {r s t : Registry}
  {links fewer needs : List (Link Model)} {owner : Option String}

/-- A resolver all of whose runs have the property. -/
def Sound (T : Traversal document) (self : Resolver) : Prop :=
  ∀ ⦃p site v out q⦄, site.isOpen → Runs (self site v) p out q →
    T.node site v p.registry out q.registry

theorem parts_fields (h : T.parts owner r links fs s) (sup : fs ⊆ gs) : T.parts owner r links gs s :=
  T.weaken h (List.Subset.refl _) sup

theorem parts_links (h : T.parts owner r links fs s) (sub : fewer ⊆ links) :
    T.parts owner r fewer fs s :=
  T.weaken h sub (List.Subset.refl _)

theorem resolveMember (hself : T.Sound self)
    (h : Runs (Schema.resolveMember self scope wanted required node) p out q)
    (under : Appends name wanted)
    (nameless : wanted = name → ∃ f ∈ fs, f.isNameless ∧ f.type = some out.result.name) :
    T.parts (some name) p.registry (out.result :: out.needs) fs q.registry := by
  obtain ⟨s, hs, rfl⟩ := Schema.resolveMember_runs h
  exact T.member under nameless (hself (Site.isOpen_of_hint rfl) hs)

/-- A member whose name extends that of its owner needs no field. -/
theorem resolveMember_extending (hself : T.Sound self)
    (h : Runs (Schema.resolveMember self scope wanted required node) p out q)
    (under : Extending (some name) wanted) :
    T.parts (some name) p.registry (out.result :: out.needs) fs q.registry :=
  resolveMember hself h (under _ rfl).1 fun he => absurd he (under _ rfl).2

theorem resolveArray (hself : T.Sound self)
    (h : Runs (Schema.resolveArray self site node m) p (m', needs) q) :
    T.parts (some m.name) p.registry needs [] q.registry := by
  have hx : Extending (some m.name) (m.name ++ "Items") := extending_append (by decide) (by decide +kernel)
  obtain ⟨items, out, s, -, hs, hr⟩ := Schema.resolveArray_runs h
  have hs := hself (Site.isOpen_of_hint rfl) hs
  obtain ⟨-, -, -, rfl, rfl, -⟩ | ⟨-, rfl, rfl, -⟩ := hr
  · exact T.item hx hs
  · exact parts_links (T.member (hx _ rfl).1 (fun he => absurd he (hx _ rfl).2) hs) (by simp)

theorem resolveMapValues (hself : T.Sound self)
    (h : Runs (Schema.resolveMapValues self site node m) p (m', needs) q) :
    T.parts (some site.name) p.registry needs [] q.registry ∧ m'.name = m.name ∧
      m'.fields = m.fields ∧ m'.dependencies = m.dependencies ∧ m'.branches = m.branches := by
  obtain ⟨out, hs, -, rfl, rfl⟩ | ⟨rfl, rfl, ⟨-, rfl⟩ | ⟨-, rfl⟩⟩ := Schema.resolveMapValues_runs h
  · exact ⟨parts_links (resolveMember_extending hself hs
      (extending_append (by decide) (by decide +kernel))) (by simp), rfl, rfl, rfl, rfl⟩
  · exact ⟨T.nothing, rfl, rfl, rfl, rfl⟩
  · exact ⟨T.nothing, rfl, rfl, rfl, rfl⟩

theorem followReference {text : String} (hself : T.Sound self)
    (new : p.registry.lookupRef text = none)
    (h : Runs (followReference document self scope text) p ref q) :
    T.handle p.registry text ref q.registry := by
  obtain ⟨target, reserved, r, out, s, ht, hr, hs, hc⟩ := followReference_runs h
  have hs := hself (Site.isOpen_of_hint rfl) hs
  obtain ⟨ho, rfl⟩ | ⟨m, found, t, ho, ha, rfl, rfl⟩ := hc
  · rw [apply_ite Progress.registry]
    exact T.followed new ht hr hs ho
  · exact T.registered new ht hr hs ho ha

theorem resolveReference (hself : T.Sound self)
    (h : Runs (resolveReference document self scope node) p ref q) :
    ∃ text, node.get? "$ref" = some (.str text) ∧ T.handle p.registry text ref q.registry := by
  obtain ⟨text, spells, ⟨hl, rfl, rfl⟩ | ⟨hl, hk, rfl⟩ | ⟨-, hn, hf⟩⟩ := resolveReference_runs h
  · exact ⟨text, spells, T.remote hl⟩
  · exact ⟨text, spells, T.declared hl hk⟩
  · exact ⟨text, spells, followReference hself hn hf⟩

theorem isNameless_of_memberName (h : Schema.memberName parent f.name = parent) :
    f.isNameless := by
  have hl := congrArg String.toList h
  simp only [Schema.memberName, Naming.nested, String.toList_ofList] at hl
  exact List.append_right_eq_self.1 hl

/-- Whatever a property is, what it leaves is left under the name of the owner. A member takes the
name of the owner itself only if the field has no name that counts, and then the field has the
name of the owner as its type. -/
theorem resolveField (hself : T.Sound self)
    (h : Runs (Schema.resolveField document self scope parent required name node) p (f, needs) q) :
    T.parts (some parent) p.registry needs [f] q.registry := by
  obtain ⟨-, start, g, hs, hg, hn, ht, -⟩ := Schema.resolveField_runs h
  obtain ⟨-, hsn, -⟩ := Schema.outlineField_runs hs
  obtain ⟨ref, -, hr, -, rfl⟩ | ⟨-, rfl, rfl, -⟩ | ⟨target, out, -, -, hm, rfl, rfl⟩ |
    ⟨-, rfl, rfl, -⟩ := Schema.resolveFieldType_runs hg
  · obtain ⟨text, -, resolved⟩ := resolveReference hself hr
    exact T.reference resolved
  · exact T.nothing
  · refine parts_links (resolveMember hself hm (Naming.appends_nested _ _) fun he => ⟨f, by simp, ?_, ht⟩)
      (by simp)
    have hm : Schema.memberName parent f.name = parent := by rw [hn]; exact he
    exact isNameless_of_memberName hm
  · exact T.nothing

theorem resolveFields (hself : T.Sound self) {entries : List (String × Json)}
    (h : Runs (Schema.resolveFields document self scope parent required entries) p (fs, needs) q) :
    T.parts (some parent) p.registry needs fs q.registry := by
  induction entries generalizing fs needs p with
  | nil =>
    simp only [Schema.resolveFields, runs_pure, Prod.mk.injEq] at h
    obtain ⟨⟨rfl, rfl⟩, rfl⟩ := h
    exact T.nothing
  | cons entry rest ih =>
    obtain ⟨f, gs, hd, tl, s, hf, hr, rfl, rfl⟩ := Schema.resolveFields_runs h
    exact T.append (resolveField hself hf) (ih hr)

/-- The branches and what they pass on are left under the name of the owner. -/
theorem resolveBranches (hself : T.Sound self) {key : String} {i : Nat} {branches : List Json}
    (under : ∀ i : Nat, Extending (some parent) (name ++ toString i))
    (h : Runs (Schema.resolveBranches self scope key name required i branches) p (links, needs) q) :
    T.parts (some parent) p.registry (links ++ needs) [] q.registry := by
  induction branches generalizing i links needs p with
  | nil =>
    simp only [Schema.resolveBranches, runs_pure, Prod.mk.injEq] at h
    obtain ⟨⟨rfl, rfl⟩, rfl⟩ := h
    exact T.nothing
  | cons branch rest ih =>
    obtain ⟨out, more, tl, s, hm, hr, rfl, rfl⟩ := Schema.resolveBranches_runs h
    have hm : T.parts (some parent) p.registry _ [] s.registry :=
      resolveMember_extending hself hm (under i)
    refine parts_links (T.append hm (ih hr)) ?_
    have hp : Schema.Outcome.passedOn out ⊆ out.result :: out.needs := by
      unfold Schema.Outcome.passedOn
      split <;> simp
    intro l hl
    simp only [List.mem_append, List.mem_cons] at hl ⊢
    have := @hp l
    simp only [List.mem_cons] at this
    tauto

theorem resolveCombinator (hself : T.Sound self) {key label : String}
    {branches : Option (List (Link Model))} (hl : label ≠ "")
    (word : label.toList.all Text.isWord = true)
    (h : Runs (Schema.resolveCombinator self site required node m key label) p (branches, needs) q) :
    T.parts (some m.name) p.registry (branches.getD [] ++ needs) [] q.registry := by
  obtain ⟨rfl, rfl, rfl, -⟩ | ⟨items, links, -, hb, rfl⟩ := Schema.resolveCombinator_runs h
  · exact T.nothing
  · refine resolveBranches hself (fun i => ?_) hb
    obtain ⟨labelled, -⟩ := extending_append hl word m.name rfl
    refine fun n hn => ⟨?_, fun he => hl ?_⟩
    · obtain rfl := Option.some.inj hn
      exact labelled.trans (appends_toString _ i)
    · obtain rfl := Option.some.inj hn
      rw [String.append_assoc] at he
      have empty : label ++ toString i = "" := by simpa using congrArg String.toList he
      exact (String.append_eq_empty_iff.1 empty).1

theorem resolveProperties (hself : T.Sound self)
    (h : Runs (Schema.resolveProperties document self site required node m) p (fs, needs) q) :
    T.parts (some m.name) p.registry needs fs q.registry := by
  obtain ⟨rfl, rfl, rfl, -⟩ | ⟨entries, -, hf⟩ := Schema.resolveProperties_runs h
  · exact T.nothing
  · exact resolveFields hself hf

/-- Properties and branches are left under the name of the schema. -/
theorem resolveComposite (hself : T.Sound self)
    (h : Runs (Schema.resolveComposite document self site node m) p (m', needs) q) :
    ∃ links, T.parts (some m.name) p.registry links m'.fields q.registry ∧ m'.name = m.name ∧
      m'.dependencies = m.dependencies ∧ m'.branches ⊆ links ∧ needs ⊆ links := by
  obtain ⟨names, fs, allOf, anyOf, oneOf, n₀, n₁, n₂, n₃, p₁, p₂, p₃, -, h₀, h₁, h₂, h₃, rfl, rfl⟩ :=
    Schema.resolveComposite_runs h
  have h₀ := resolveProperties hself h₀
  have h₁ := resolveCombinator hself (by decide) (by decide +kernel) h₁
  have h₂ := resolveCombinator hself (by decide) (by decide +kernel) h₂
  have h₃ := resolveCombinator hself (by decide) (by decide +kernel) h₃
  refine ⟨_, parts_fields (T.append h₀ (T.append h₁ (T.append h₂ h₃))) (by simp), rfl, rfl, ?_⟩
  refine ⟨fun l hl => ?_, fun l hl => ?_⟩
  all_goals
    simp only [Model.branches, List.mem_append] at hl ⊢
    tauto

/-- The parts of a schema are left under its name; its branches are among what is left. -/
theorem resolveParts (hself : T.Sound self) (hd : m.dependencies = []) (hb : m.branches = [])
    (hn : m.name = site.name)
    (h : Runs (Schema.resolveParts document self site node m) p (m', needs) q) :
    ∃ links, T.parts (some m'.name) p.registry links m'.fields q.registry ∧
      m'.name = site.name ∧ m'.dependencies = [] ∧ m'.branches ⊆ links ∧ needs ⊆ links := by
  obtain ⟨-, ha⟩ | ⟨-, mid, hd', s, hm, hc⟩ := Schema.resolveParts_runs h
  · have hp := resolveArray hself ha
    obtain ⟨items, out, s, -, -, ⟨_, -, -, -, -, rfl⟩ | ⟨-, -, -, rfl⟩⟩ := Schema.resolveArray_runs ha
    all_goals
      refine ⟨needs, parts_fields hp (List.nil_subset _), hn, hd, ?_, List.Subset.refl _⟩
      change m.branches ⊆ needs
      rw [hb]
      exact List.nil_subset _
  obtain ⟨hmap, hmn, -, hmd, hmb⟩ := resolveMapValues hself hm
  have hmn := hmn.trans hn
  obtain ⟨-, tl, hcomp, rfl⟩ | ⟨-, rfl, rfl, rfl⟩ := hc
  · obtain ⟨links, hcomp, hn, hd', hb, hs⟩ := resolveComposite hself hcomp
    rw [← hmn, ← hn] at hmap
    rw [← hn] at hcomp
    exact ⟨_, parts_fields (T.append hmap hcomp) (by simp), hn.trans hmn, hd'.trans (hmd.trans hd),
      List.subset_append_of_subset_right _ hb,
      List.append_subset.2 ⟨List.subset_append_left _ _, List.subset_append_of_subset_right _ hs⟩⟩
  · obtain ⟨_, _, _, plain, -⟩ := Schema.resolvePlain_eq node mid
    rw [plain]
    refine ⟨_, parts_fields ?_ (List.nil_subset _), hmn, hmd.trans hd, ?_, List.Subset.refl _⟩
    · rw [hmn]
      exact hmap
    · change mid.branches ⊆ _
      rw [hmb, hb]
      exact List.nil_subset _

/-- A schema is a node like any other. -/
theorem resolveSchema (hself : T.Sound self) (ho : node.isObject = true)
    (plain : node.has "$ref" = false) (form : Schema.formOf node site.hint = .schema)
    (h : Runs (Schema.resolve document self site node) p out q) :
    T.node site node p.registry out q.registry := by
  have made {k : Model} (hk : out.result = .model k) : k.Made ∧ k.source = node ∧
      (Parameter.isObjectShaped k = true → Schema.isStructured node = true) :=
    ⟨Schema.resolve_made ho h hk, (Schema.resolve_kind h hk).2, Schema.resolve_shape h hk⟩
  have sorted {k : Model} (hk : out.result = .model k) : (site.owner = true → out.needs = []) ∧
      k.Sorted (fun w link => ∃ site out t owner rest fs, link = out.result ∧
        T.node site w p.registry out t ∧ T.parts owner (t.claimed link) rest fs q.registry)
        (k.dependencies ++ out.needs) := by
    obtain ⟨sorted, owned⟩ := Schema.resolve_sorted h hk
    refine ⟨owned, sorted.imp (fun w link => ?_) (List.Subset.refl _)⟩
    rintro ⟨out, s, rfl, run, follows⟩
    obtain ⟨t, resolved, rfl⟩ := Schema.resolveMember_runs run
    have resolved := hself (Site.isOpen_of_hint rfl) resolved
    obtain rfl | ⟨m, m', needs, composite⟩ := follows
    · exact ⟨_, out, t.registry, none, [], [], rfl, resolved, T.nothing⟩
    · obtain ⟨links, composite, -⟩ := resolveComposite hself composite
      exact ⟨_, out, t.registry, _, links, _, rfl, resolved, composite⟩
  obtain ⟨ref, -, hf, rfl, rfl⟩ | ⟨start, m, needs, hs, hp, rfl⟩ := Schema.resolve_runs h
  · exact T.known ho plain hf
  obtain ⟨-, hn, -, -, hd, -, hb⟩ := Schema.outline_runs hs
  obtain ⟨links, hl, hmn, hmd, hmb, hm⟩ := resolveParts hself hd hb hn hp
  split at made
  · rw [if_pos ‹_›] at sorted ⊢
    exact T.model (m := { m with dependencies := needs }) hl plain (made rfl).1 (made rfl).2.1
      (.inl hmn) (fun _ => form) hm hmb (List.nil_subset _) (fun h => ⟨form, (made rfl).2.2 h⟩)
      (sorted rfl).1 fun _ => (sorted rfl).2
  · rw [if_neg ‹_›] at sorted ⊢
    exact T.model hl plain (made rfl).1 (made rfl).2.1 (.inl hmn) (fun _ => form)
      (hmd ▸ List.nil_subset _) hmb hm (fun h => ⟨form, (made rfl).2.2 h⟩) (sorted rfl).1
      fun _ => (sorted rfl).2

/-- The values of a parameter are left under its name. -/
theorem resolveValues (hself : T.Sound self) {schema : Option Json}
    (hd : m.dependencies = []) (hb : m.branches = [])
    (h : Runs (Parameter.resolveValues self scope schema m) p m' q) :
    T.parts (some m.name) p.registry m'.dependencies [] q.registry ∧ m'.name = m.name ∧
      m'.branches = [] := by
  have hx : Extending (some m.name) (Site.ofOwner scope (m.name ++ "Schema")).name :=
    extending_append (by decide) (by decide +kernel)
  have hset (v : Json) (r : Registry) : (Site.ofOwner scope (m.name ++ "Schema")).IsSettled v r :=
    fun he => absurd (String.append_eq_empty_iff.1 he).2 (by decide)
  obtain ⟨-, rfl, rfl⟩ | ⟨v, out, s, -, hs, hc⟩ := Parameter.resolveValues_runs h
  · exact ⟨by rw [hd]; exact T.nothing, rfl, hb⟩
  have hs := hself (Site.isOpen_of_hint rfl) hs
  obtain ⟨ref, ho, rfl, rfl⟩ | ⟨parsed, found, t, ho, shaped, ha, rfl, rfl⟩ |
    ⟨parsed, ho, -, rfl, rfl⟩ := hc
  · have hi : T.parts (some m.name) p.registry out.result.inner [] _ := T.inner hx nofun (hset _ _) hs
    rw [ho] at hi
    exact ⟨hi, rfl, hb⟩
  · exact ⟨T.content hx rfl rfl (hset _ _) (.shaped ho shaped) hs (ho ▸ ha), rfl, hb⟩
  · have hi : T.parts (some m.name) p.registry out.result.inner [] _ := T.inner hx nofun (hset _ _) hs
    rw [ho] at hi
    exact ⟨parts_links hi (by simp [Link.inner, Model.inner, Parameter.takesOver]), rfl, hb⟩

/-- A parameter is a node like any other. -/
theorem resolveParameter (hself : T.Sound self) (ho : node.isObject = true)
    (plain : node.has "$ref" = false)
    (h : Runs (Parameter.resolve self site.scope site.name node) p m q) :
    T.node site node p.registry ⟨.model m, []⟩ q.registry := by
  have made := Parameter.resolve_made ho h
  have source := (Parameter.resolve_kind h).2
  have shape : Parameter.isObjectShaped m = true →
      Schema.formOf node site.hint = .schema ∧ Schema.isStructured node = true := by
    rw [Parameter.resolve_shape h]
    nofun
  have titled := Parameter.resolve_titled h
  obtain ⟨⟨place, kind⟩, -⟩ := Parameter.resolve_kind h
  have other : m.kind ≠ .schema := by
    rw [kind]
    cases place <;> nofun
  obtain ⟨start, schema, mid, -, hne, -, -, hd, -, hb, -, -, hv, hm⟩ := Parameter.resolve_runs h
  obtain ⟨hp, hmn, hmb⟩ := resolveValues hself hd hb hv
  have hmb : ∀ links : List (Link Model), mid.branches ⊆ links := by simp [hmb]
  rw [← hmn] at hp hne
  have hparts : T.parts (some mid.name) p.registry mid.dependencies mid.fields q.registry :=
    parts_fields hp (List.nil_subset _)
  obtain rfl | rfl := hm
  · exact T.model hparts plain made source titled (fun he => absurd he hne) (List.Subset.refl _) (hmb _)
      (List.nil_subset _) shape (fun _ => rfl) fun h => absurd h other
  · exact T.model (m := { mid with validations := Dict.put mid.validations "required" (.bool true) })
      hparts plain made source titled (fun he => absurd he hne) (List.Subset.refl _) (hmb _)
      (List.nil_subset _) shape (fun _ => rfl) fun h => absurd h other

theorem resolveSecurityScheme (ho : node.isObject = true) (plain : node.has "$ref" = false)
    (form : Schema.formOf node site.hint = .securityScheme)
    (h : Runs (resolveSecurityScheme site.scope site.name node) p m q) :
    T.node site node p.registry ⟨.model m, []⟩ q.registry := by
  have made := resolveSecurityScheme_made ho h
  have shape : Parameter.isObjectShaped m = true →
      Schema.formOf node site.hint = .schema ∧ Schema.isStructured node = true := by
    rw [resolveSecurityScheme_shape h]
    nofun
  have titled := resolveSecurityScheme_titled form h
  obtain ⟨rfl, -, hne, kind, source, hd, -, hb⟩ := resolveSecurityScheme_runs h
  have hparts : T.parts (some m.name) q.registry [] m.fields q.registry := T.nothing
  exact T.model hparts plain made source titled (fun he => absurd he hne) (by simp [hd]) (by simp [hb])
    (List.nil_subset _) shape (fun _ => rfl) fun h => by rw [kind] at h; cases h

theorem resolveForm (hself : T.Sound self) (hs : site.isOpen)
    (h : Runs (resolveForm document self site node) p out q) :
    T.node site node p.registry out q.registry := by
  obtain ⟨ho, ⟨hf, ref, hr, rfl⟩ | ⟨hf, m, hm, rfl⟩ | ⟨hf, m, hm, rfl⟩ | ⟨hh, -⟩ | ⟨hf, hm⟩⟩ :=
    resolveForm_runs h
  · obtain ⟨text, spells, resolved⟩ := resolveReference hself hr
    exact T.refers spells resolved
  · exact resolveSecurityScheme ho (Schema.plain_of_formOf hf nofun) hf hm
  · exact resolveParameter hself ho (Schema.plain_of_formOf hf nofun) hm
  · exact hh.elim (absurd · hs.1) (absurd · hs.2)
  · exact resolveSchema hself ho (Schema.plain_of_formOf hf nofun) hf hm

theorem sound_resolveWithin (T : Traversal document) (depth : Nat) :
    T.Sound (resolveWithin document depth) := by
  induction depth with
  | zero => exact fun _ _ _ _ _ _ h => (runs_fail.1 h).elim
  | succ depth ih => exact fun _ _ _ _ _ hs h => resolveForm ih hs h

/-- Every node of a document is resolved with the property. -/
theorem sound_resolveNode (T : Traversal document) : T.Sound (resolveNode document) :=
  fun _ _ _ _ _ hs h => sound_resolveWithin T _ hs h

end Traversal

end ApiGraph
