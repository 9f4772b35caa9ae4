import ApiGraph.Proofs.Labels
import ApiGraph.Proofs.Resolve.Settled

/-! A registered schema has the keywords of its node and no others, but for two: that null is allowed,
when it is one of several types, and what additional properties were resolved into. This holds when it
is resolved, and neither its registration nor the copy for an alias changes it. -/

namespace ApiGraph

open Resolving Registry

/-- A model has no keywords beside those of its node, but for the two that its resolution adds. -/
structure Model.Trim (m : Model) (became : Json → Link Model → Prop) (links : List (Link Model)) :
    Prop where
  validations : ∀ {key v}, m.validations.lookup key = some v →
    (Schema.keywords m.source).validations.lookup key = some v ∨
      key = "nullable" ∧ v = .bool true ∧ (Schema.declaredType m.source).2 = true
  extras : ∀ {key v}, m.extras.lookup key = some v →
    (Schema.keywords m.source).extras.lookup key = some v ∨
      key = "additionalProperties" ∧
        Schema.Marks became links (m.source.get "additionalProperties") v

namespace Model.Trim

variable {became became' : Json → Link Model → Prop} {links more : List (Link Model)} {m k : Model}

theorem imp (h : m.Trim became links) (imp : ∀ v link, became v link → became' v link)
    (sub : links ⊆ more) : m.Trim became' more :=
  ⟨h.validations, fun written => (h.extras written).imp_right fun ⟨key, marks⟩ =>
    ⟨key, marks.imp imp sub⟩⟩

theorem of_eq (h : m.Trim became links) (source : k.source = m.source)
    (validations : k.validations = m.validations) (extras : k.extras = m.extras) :
    k.Trim became links := by
  obtain ⟨hv, he⟩ := h
  exact ⟨by rw [source, validations]; exact hv, by rw [source, extras]; exact he⟩

/-- A model without keywords has none beside those of its node. -/
theorem of_nil (validations : m.validations = []) (extras : m.extras = []) : m.Trim became links :=
  ⟨by simp [validations], by simp [extras]⟩

/-- What is written over the keywords when a model is registered are those of its node. -/
theorem entitled (h : m.Trim became links) (name : String) :
    (Registry.entitled m name).Trim became links := by
  obtain ⟨validations, extras⟩ := Schema.nodup_keywords m.source
  have written {d es : Dict String Json} {key : String} {v : Json} (single : (Dict.keys es).Nodup)
      (h : (Dict.merge d es).lookup key = some v) : es.lookup key = some v ∨ d.lookup key = some v := by
    rw [Dict.lookup_merge single] at h
    exact (Option.or_eq_some_iff.1 h).imp_right And.right
  exact ⟨fun h' => (written validations h').elim .inl h.validations,
    fun h' => (written extras h').elim .inl h.extras⟩

end Model.Trim

/-- A schema that was resolved has no other keywords. -/
theorem Model.Sorted.trim {became : Json → Link Model → Prop} {links : List (Link Model)} {m : Model}
    (h : m.Sorted became links) : m.Trim became links := by
  refine ⟨fun {key v} written => ?_, fun {key v} written => ?_⟩
  · rw [h.validations, Schema.allowNull] at written
    split at written
    · next nullable =>
      exact (lookup_put_cases written).symm.imp_right fun ⟨key, v⟩ => ⟨key, v, nullable⟩
    · exact .inl written
  · obtain same | ⟨mark, marks, put⟩ := h.extras
    · exact .inl (same ▸ written)
    · rw [put] at written
      refine (lookup_put_cases written).symm.imp_right fun ⟨key, v⟩ => ⟨key, ?_⟩
      exact v ▸ marks

/-- A model is trim if it is a schema that was made from a node. -/
def Model.IsTrim (document : Json) (r : Registry) (m : Model) : Prop :=
  m.kind = .schema → m.source.isObject = true → m.Trim (TurnsInto document r) m.dependencies

/-- All registered schemas are trim. -/
def Registry.AllTrim (document : Json) (r : Registry) : Prop :=
  ∀ name m, r.models.lookup name = some m → m.IsTrim document r

variable {document : Json} {r s t : Registry} {p q : Progress} {scope : Scope} {m : Model} {ref : Ref}

theorem Model.IsTrim.of_grows (h : m.IsTrim document r) (g : Grows (fun _ => False) r s) :
    m.IsTrim document s := fun kind object =>
  (h kind object).imp (fun _ _ settled => settled.of_grows g) (List.Subset.refl _)

theorem Model.IsTrim.entitled (h : m.IsTrim document r) (name : String) :
    (Registry.entitled m name).IsTrim document r := fun kind object => (h kind object).entitled name

namespace Registry

/-- A registry that comes from one with trim models only has trim models only. -/
def Trims (document : Json) (r s : Registry) : Prop :=
  r.Extends (Component.Undeclared document) s ∧
    (r.Sound (Component.Undeclared document) → r.AllTrim document → s.AllTrim document)

theorem AllTrim.of_models (h : r.AllTrim document) (same : s.models = r.models)
    (g : Grows (fun _ => False) r s) : s.AllTrim document := fun name m hm =>
  (h name m (same ▸ hm)).of_grows g

theorem Trims.refl (r : Registry) : r.Trims document r := ⟨.refl r, fun _ => id⟩

theorem Trims.trans (h₁ : r.Trims document s) (h₂ : s.Trims document t) : r.Trims document t :=
  ⟨h₁.1.trans h₂.1, fun hr trim => h₂.2 (h₁.1 hr).1 (h₁.2 hr trim)⟩

theorem Extends.grows {R : String → Prop} (x : r.Extends R s) (hr : r.Sound R) :
    Grows (fun _ => False) r s := (x hr).2.of_new

theorem trims_claimed (r : Registry) (link : Link Model) : r.Trims document (r.claimed link) := by
  have x : r.Extends (Component.Undeclared document) (r.claimed link) := extends_claimed r link
  refine ⟨x, fun hr trim => trim.of_models ?_ (x.grows hr)⟩
  cases link <;> rfl

theorem trims_reserve {key wanted : String} (new : r.named.lookup key = none) :
    r.Trims document (r.reserve key wanted).2 := by
  refine ⟨extends_reserve r key wanted, fun _ trim => trim.of_models ?_ (grows_reserve new)⟩
  rw [reserve_new new]

/-- A trim model enters. -/
theorem trims_assert {raw : Json} {parsed : Link Model} {hint : Option String} {space : KeySpace}
    {location : String} {found : Resolved} (trim : ∀ m, parsed = .model m → m.IsTrim document r)
    (ha : r.assert raw parsed hint space location = .ok (found, s)) : r.Trims document s := by
  have x : r.Extends (Component.Undeclared document) s := extends_assert ha
  refine ⟨x, fun hr all => ?_⟩
  obtain rfl | ⟨k, rfl, hk⟩ := assert_cases ha
  · exact all
  obtain rfl := congrArg Prod.snd hk
  obtain same | ⟨n, entered⟩ := register_models (r := r) space (keyFor space raw k hint) k
  · exact all.of_models same (x.grows hr)
  intro name m hm
  obtain ⟨-, rfl⟩ | hm := lookup_put_cases (entered ▸ hm)
  · exact ((trim k rfl).of_grows (x.grows hr)).entitled n
  · exact (all name m hm).of_grows (x.grows hr)

/-- When another name takes the place of the one that was made for a reference, all remain trim. -/
theorem AllTrim.redirect {key name : String} {target : Json} {taken : List String}
    (h : s.AllTrim document) (undeclared : Component.Undeclared document key)
    (leads : Pointer.resolve document key = some target)
    (given : s.named.lookup key = some (freeVariant taken (pointerName key))) :
    (s.redirect key name).AllTrim document := fun n m hm kind object =>
  (h n m hm kind object).imp (fun _ _ settled => settled.redirect undeclared leads given)
    (List.Subset.refl _)

end Registry

/-- The resolution of nodes makes trim schemas only. -/
def trimming (document : Json) : Traversal document where
  node site v r out s := (extension document (Component.Undeclared document)).node site v r out s ∧
    (site.owner = true → out.needs = []) ∧
    (r.Sound (Component.Undeclared document) → (r.AllTrim document → s.AllTrim document) ∧
      TurnsInto document s v out.result ∧
      ∀ m, out.result = .model m → m.kind = .schema →
        m.Trim (TurnsInto document s) (m.dependencies ++ out.needs))
  parts _ r _ _ s := r.Trims document s
  handle r text ref s :=
    (extension document (Component.Undeclared document)).handle r text ref s ∧
    (r.Sound (Component.Undeclared document) → (r.AllTrim document → s.AllTrim document) ∧
      Handled document s text ref)
  nothing := .refl _
  append := .trans
  weaken whole _ _ := whole
  member _ _ resolved :=
    Trims.trans ⟨resolved.1.1, fun hr => (resolved.2.2 hr).1⟩ (trims_claimed _ _)
  item _ resolved := ⟨resolved.1.1, fun hr => (resolved.2.2 hr).1⟩
  reference resolved := ⟨resolved.1.1, fun hr => (resolved.2 hr).1⟩
  inner _ _ _ resolved := ⟨resolved.1.1, fun hr => (resolved.2.2 hr).1⟩
  content _ _ keeps _ _ resolved ha := by
    refine ⟨resolved.1.1.trans (extends_assert ha), fun hr all => ?_⟩
    obtain ⟨trim, -, made⟩ := resolved.2.2 hr
    refine (trims_assert (fun m hm kind _ => ?_) ha).2 (resolved.1.1 hr).1 (trim all)
    simpa [resolved.2.1 keeps] using made m hm kind
  gathered _ _ _ _ sourceless _ ha := trims_assert (fun m hm _ object => by
    obtain rfl := Link.model.inj hm
    rw [sourceless] at object
    cases object) ha
  model {site v r s m links needs} resolved plain made source _ _ _ _ _ _ owned sorted := by
    refine ⟨⟨resolved.1, nofun⟩, owned, fun hr => ⟨resolved.2 hr, .made source plain, fun k hk kind => ?_⟩⟩
    obtain rfl := Link.model.inj hk
    refine (sorted kind).trim.imp (fun w link => ?_) (List.Subset.refl _)
    rintro ⟨site, out, t, owner, rest, fs, rfl, member, more⟩
    have ht := (member.1.1 hr).1
    have x := (extends_claimed t out.result).trans more.1
    exact (member.2.2 hr).2.1.of_grows (x.grows ht)
  refers spells resolved := ⟨(extension _ _).refers spells resolved.1, fun _ => rfl, fun hr =>
    ⟨(resolved.2 hr).1, .refers spells (resolved.2 hr).2, nofun⟩⟩
  known object plain hf := by
    refine ⟨(extension _ _).known object plain hf, fun _ => rfl, fun _ => ⟨id, ?_, nofun⟩⟩
    obtain ⟨name, rfl, found, registered⟩ := findStructural_eq_some hf
    exact .equal plain found registered
  remote outside := ⟨(extension _ _).remote outside, fun _ => ⟨id, .outside outside⟩⟩
  declared inside hk := by
    refine ⟨(extension _ _).declared inside hk, fun _ => ⟨id, ?_⟩⟩
    obtain ⟨name, rfl, known⟩ := lookupRef_eq_some hk
    exact .known inside rfl known
  followed {r r' s text target reserved ref scope out} new leads reserves resolved ho := by
    refine ⟨(extension document _).followed new leads reserves resolved.1 ho, fun hr => ?_⟩
    have new := (lookupRef_eq_none new).1
    obtain ⟨rfl, rfl⟩ := reserved_eq new reserves
    have x : r.Trims document (r.reserve text (pointerName text)).2 := trims_reserve new
    have hr' := (x.1 hr).1
    obtain ⟨trim, settled, -⟩ := resolved.2.2 hr'
    rw [ho] at settled
    refine ⟨fun all => ?_, .followed leads settled⟩
    split
    · exact trim (x.2 hr all)
    · have reserved : s.named.lookup text = some (r.freeName (pointerName text)) :=
        (resolved.1.1.grows hr').name id (by simp [reserve_new new])
      exact (trim (x.2 hr all)).redirect (hr.2 _ new) leads reserved
  registered {r r' s t text location target reserved scope out m found} new leads reserves resolved ho
      ha := by
    refine ⟨(extension document _).registered new leads reserves resolved.1 ho ha, fun hr => ?_⟩
    have new := (lookupRef_eq_none new).1
    obtain ⟨rfl, rfl⟩ := reserved_eq new reserves
    have x : r.Trims document (r.reserve text (pointerName text)).2 := trims_reserve new
    have hr' := (x.1 hr).1
    obtain ⟨trim, settled, made⟩ := resolved.2.2 hr'
    rw [ho] at settled
    have entered := trims_assert (fun k hk kind _ => by
      obtain rfl := Link.model.inj hk
      simpa [resolved.2.1 rfl] using made m ho kind) ha
    have reserved : s.named.lookup text = some (r.freeName (pointerName text)) :=
      (resolved.1.1.grows hr').name id (by simp [reserve_new new])
    have hs := (resolved.1.1 hr').1
    refine ⟨fun all => entered.2 hs (trim (x.2 hr all)), ?_⟩
    exact .registered leads reserved ((entered.1.grows hs).name id reserved) settled ha

namespace Component

variable {e : Entry} {es : List Entry}

/-- Components are resolved into trim schemas. -/
theorem resolveEach_trim {resolved : List (Entry × Link Model)} (hr : Ready document es p.registry)
    (h : Runs (resolveEach (resolveNode document) scope es) p resolved q) :
    ∀ e m, (e, Link.model m) ∈ resolved → m.IsTrim document q.registry := by
  induction es generalizing p resolved with
  | nil =>
    obtain ⟨rfl, rfl⟩ := runs_pure.1 h
    exact fun _ _ hm => by cases hm
  | cons e es ih =>
    obtain ⟨link, more, s, hl, hm, rfl⟩ := resolveEach_runs h
    have here : p.registry.Trims document s.registry :=
      Traversal.resolveComponent (T := trimming document) hr.settled hr.titled hl
    have ready := hr.tail.extend here.1
    have rest := (resolveEach_traversed (trimming document) ready hm).1.1
    intro e' m he
    obtain he | he := List.mem_cons.1 he
    · obtain ⟨rfl, rfl⟩ := Prod.mk.inj he
      intro kind object
      obtain ⟨site, v, needs, keeps, -, node⟩ | ⟨other, -, -⟩ :=
        Traversal.resolveComponent_model (trimming document) hl
      swap
      · rw [kind] at other
        obtain other | other := other <;> cases other
      have made := (node.2.2 hr.sound).2.2 m rfl kind
      have trim : m.IsTrim document s.registry := fun _ _ => by
        simpa [show needs = [] from node.2.1 keeps] using made
      exact trim.of_grows (rest.grows ready.sound) kind object
    · exact ih ready hm e' m he

/-- The copy for an alias is trim. -/
theorem isTrim_aliasModel {name location : String} (trim : r.AllTrim document)
    (h : aliasModel r e name location ref = some m) : m.IsTrim document r := by
  obtain ⟨-, rfl⟩ | ⟨known, k, hk, rfl⟩ := aliasModel_cases h
  · exact fun _ _ => .of_nil rfl rfl
  · exact fun kind object => (trim known k hk kind object).of_eq rfl rfl rfl

/-- The collection of components registers trim schemas only. -/
theorem collect_trim (hp : p.registry = .empty)
    (h : Runs (collect document (resolveNode document) scope) p () q) :
    q.registry.AllTrim document := by
  obtain ⟨resolved, s, t, order, he, hf, ho, hperm⟩ := collect_runs h
  rw [hp] at he
  have start : (base document).AllTrim document := fun name m hm => by
    rw [base_models] at hm
    cases hm
  obtain ⟨traversed, hes, hres⟩ := resolveEach_traversed (trimming document) (base_ready document) he
  have hs : Ready document (listed document) s.registry := (base_ready document).extend traversed.1
  have made := resolveEach_trim (base_ready document) he
  have hmem : ∀ x ∈ resolved, x.1 ∈ listed document := fun x hm => hes ▸ List.mem_map_of_mem hm
  -- What was resolved into trim models is registered after registries have grown further.
  obtain ⟨⟨-, trim⟩, x, -⟩ := register_induction
    (I := fun r => s.registry.Extends (Undeclared document) r ∧ r.AllTrim document) hs hmem
    (fun e m hm => Resolves.plain (hres (e, .model m) hm))
    (fun e m r _ _ _ hm ready ⟨grown, trim⟩ ha => by
      have fresh : ∀ k, Link.model m = .model k → k.IsTrim document r := fun k hk => by
        obtain rfl := Link.model.inj hk
        exact (made e m hm).of_grows (grown.grows hs.sound)
      have entered := trims_assert fresh ha
      exact ⟨grown.trans entered.1, entered.2 ready.sound trim⟩)
    ⟨.refl _, traversed.2 (base_ready document).sound start⟩ hf
  refine (aliased_induction (I := fun r => r.AllTrim document) (hs.extend x)
    (fun y hy => hmem (y.1, .ref y.2) (mem_aliases (hperm.mem_iff.1 hy))) ?_ trim ho).1
  intro e ref m r u location found hm ready copied trim ha
  exact (trims_assert (fun k hk => by
    obtain rfl := Link.model.inj hk
    exact isTrim_aliasModel trim copied) ha).2 ready.sound trim

end Component

variable {τ : Type} {g g' : Graph τ}

/-- The registered schemas of an accepted document are trim. -/
theorem Graph.Accepts.trim (h : Graph.Accepts g document g') : g'.registry.AllTrim document := by
  obtain ⟨s, t, walked, hc, hp, hr, -⟩ := h.walked
  have collected := Component.collect_collected rfl hc
  have paths : s.registry.Trims document t.registry :=
    Traversal.resolvePaths (T := trimming document) hp
  exact hr ▸ paths.2 collected.ready.sound (Component.collect_trim rfl hc)

/-- A schema allows null by its types only if null is one of several. -/
theorem Schema.declaredType_nullable {node : Json} (h : (declaredType node).2 = true) :
    ∃ types, node.get? "type" = some (.arr types) ∧ .str "null" ∈ types := by
  unfold declaredType at h
  split at h
  · next types declared =>
    have null : types.any isNullWord = true := by
      dsimp only at h
      split at h <;> exact h
    obtain ⟨word, mem, isNull⟩ := List.any_eq_true.1 null
    refine ⟨types, ?_, ?_⟩
    · unfold Json.get at declared
      cases given : node.get? "type" with
      | none =>
        rw [given] at declared
        cases declared
      | some v =>
        rw [given] at declared
        exact congrArg some declared
    · cases word with
      | str text =>
        obtain rfl : text = "null" := by simpa [isNullWord, Json.text?] using isNull
        exact mem
      | _ => cases isNull
  · cases h
  · cases h

/-- A model has every keyword among the entries of a node, as it is there. Beside these it may say that
null is allowed, if a vendor key says so or null is one of several types, and what additional properties
are: any, or the model or handle that they were resolved into, on which the model depends. -/
structure Model.KeepsKeywords (m : Model) (entries : List (String × Json))
    (became : Json → Link Model → Prop) : Prop where
  validations : ∀ {key v}, key ∈ Schema.validationKeys → entries.lookup key = some v →
    m.validations.lookup key = some v
  extras : ∀ {key v}, key ∉ Schema.validationKeys → key ∉ Schema.structuralKeys →
    entries.lookup key = some v → m.extras.lookup key = some v
  onlyValidations : ∀ {key v}, m.validations.lookup key = some v →
    key ∈ Schema.validationKeys ∧ entries.lookup key = some v ∨
      key = "nullable" ∧ entries.lookup key = none ∧
        (entries.lookup "x-nullable" = some v ∨
          entries.lookup "x-nullable" = none ∧ v = .bool true ∧
            ∃ types, entries.lookup "type" = some (.arr types) ∧ .str "null" ∈ types)
  onlyExtras : ∀ {key v}, m.extras.lookup key = some v →
    (key ∉ Schema.validationKeys ∧ key ∉ Schema.structuralKeys) ∧ entries.lookup key = some v ∨
      key = "additionalProperties" ∧
        (entries.lookup key = some (.bool true) ∧ v = .bool true ∨
          ∃ values link, entries.lookup key = some values ∧ values.isObject = true ∧
            became values link ∧ link ∈ m.dependencies ∧ v = .str link.name)

/-- A model with the keywords of its node that has no others keeps them. -/
theorem Model.KeepsKeywords.of_trim {entries : List (String × Json)} {became : Json → Link Model → Prop}
    (source : m.source = .obj entries) (single : (Dict.keys entries).Nodup) (labelled : m.IsLabelled)
    (trim : m.Trim became m.dependencies) : m.KeepsKeywords entries became := by
  obtain ⟨validations, extras⟩ := labelled
  obtain ⟨onlyValidations, onlyExtras⟩ := trim
  simp only [source, Schema.lookup_validations single, Schema.lookup_extras_obj single]
    at validations extras onlyValidations onlyExtras
  have nullable : Schema.isValidation "nullable" = true := by decide +kernel
  refine ⟨fun mem given => validations ?_, fun validation structural given => extras ?_,
    fun {key v} written => ?_, fun {key v} written => ?_⟩
  · rw [if_pos (Schema.isValidation_iff.2 mem), given]
    rfl
  · rw [if_pos (Schema.isExtra_iff.2 ⟨structural, validation⟩), given]
  · obtain given | ⟨rfl, rfl, null⟩ := onlyValidations written
    · obtain given | ⟨absent, vendor⟩ := Option.or_eq_some_iff.1 given
      · obtain ⟨validation, given⟩ := Option.ite_none_right_eq_some.1 given
        exact .inl ⟨Schema.isValidation_iff.1 validation, given⟩
      obtain ⟨rfl, vendor | ⟨-, own⟩⟩ := Schema.lookup_nullableOf vendor
      · rw [if_pos nullable] at absent
        exact .inr ⟨rfl, absent, .inl vendor⟩
      · rw [if_pos nullable, own] at absent
        cases absent
    -- What is written at the registration takes the place of what the types have to say.
    cases own : entries.lookup "nullable" with
    | some w =>
      have kept : m.validations.lookup "nullable" = some w := validations (by
        rw [if_pos nullable, own]
        rfl)
      exact .inl ⟨Schema.isValidation_iff.1 nullable, kept.symm.trans written⟩
    | none =>
      refine .inr ⟨rfl, rfl, ?_⟩
      cases vendor : entries.lookup "x-nullable" with
      | some w =>
        have kept : m.validations.lookup "nullable" = some w := validations (by
          rw [if_pos nullable, own, Schema.nullableOf, vendor]
          rfl)
        exact .inl (kept.symm.trans written)
      | none => exact .inr ⟨rfl, rfl, Schema.declaredType_nullable null⟩
  · obtain given | ⟨rfl, marks⟩ := onlyExtras written
    · obtain ⟨extra, given⟩ := Option.ite_none_right_eq_some.1 given
      exact .inl ⟨(Schema.isExtra_iff.1 extra).symm, given⟩
    generalize declared : (Json.obj entries).get "additionalProperties" = values at marks
    cases marks with
    | any => exact .inr ⟨rfl, .inl ⟨Json.get?_of_get declared nofun, rfl⟩⟩
    | @values _ link object resolved holds =>
      have given : values ≠ .null := by
        rintro rfl
        cases object
      exact .inr ⟨rfl, .inr ⟨values, link, Json.get?_of_get declared given, object, resolved, holds, rfl⟩⟩

/-- Every registered schema of an accepted document keeps the keywords of the node that it was made
from, and adds no others. -/
theorem schemas_keep_keywords (h : Graph.Accepts g document g') {name : String}
    (registered : g'.registry.models.lookup name = some m) (kind : m.kind = .schema)
    {entries : List (String × Json)} (source : m.source = .obj entries)
    (single : (Dict.keys entries).Nodup) :
    m.KeepsKeywords entries (TurnsInto document g'.registry) :=
  .of_trim source single (h.isLabelled registered) (h.trim name m registered kind (source ▸ rfl))

/-- What a schema says whose values are of one of several types. -/
def shelf.box : List (String × Json) :=
  [("type", .arr [.str "object", .str "null"]), ("maxProperties", .int 3), ("x-owner", .str "shop"),
    ("additionalProperties", .obj [("type", .str "object")])]

/-- A document with the schema and an alias for it. -/
def shelf : Json :=
  .obj [("openapi", .str "3.1.0"), ("components", .obj [("schemas", .obj [
    ("Tote", .obj [("$ref", .str (Pointer.component "schemas" "Box"))]), ("Box", .obj shelf.box)])])]

/-- The graph that the document leaves. -/
def shelf.graph : Graph Unit := (Graph.empty.parse shelf none).graph

/-- The keys of the validations of a registered model, and its extras. -/
def shelf.kept (name : String) : Option (List String × List (String × Option String)) :=
  (shelf.graph.registry.models.lookup name).map fun m =>
    (Dict.keys m.validations, m.extras.map fun x => (x.1, x.2.text?))

/-- Whether a schema is registered under a name that was made from an object without repeated keys. -/
def shelf.holds (name : String) : Bool :=
  (shelf.graph.registry.models.lookup name).any fun m =>
    decide (m.kind = .schema) && match m.source with
      | .obj entries => decide (Dict.keys entries).Nodup
      | _ => false

/-- The alias has the keywords of the schema, which say that null is allowed and name the model of the
values. -/
theorem schemas_keep_keywords_alias :
    Graph.Accepts Graph.empty shelf shelf.graph ∧
      shelf.kept "Tote" = some (["maxProperties", "nullable"],
        [("x-owner", some "shop"), ("additionalProperties", some "BoxExtras")]) ∧
      ∃ m entries, shelf.graph.registry.models.lookup "Tote" = some m ∧ m.source = .obj entries ∧
        m.KeepsKeywords entries (TurnsInto shelf shelf.graph.registry) := by
  have accepted : Graph.Accepts Graph.empty shelf shelf.graph := .of_isOk (by decide +kernel)
  have holds : shelf.holds "Tote" = true := by decide +kernel
  obtain ⟨m, registered, holds⟩ := (Option.any_eq_true _ _).1 holds
  refine ⟨accepted, by decide +kernel, m, ?_⟩
  cases source : m.source with
  | obj entries =>
    rw [source, Bool.and_eq_true, decide_eq_true_eq, decide_eq_true_eq] at holds
    exact ⟨entries, registered, rfl,
      schemas_keep_keywords accepted registered holds.1 source holds.2⟩
  | _ => simp [source] at holds

end ApiGraph
