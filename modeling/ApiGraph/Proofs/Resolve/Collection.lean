import ApiGraph.Proofs.Resolve.Extension

/-! The collection of components as a whole. It starts from a registry in which exactly the
declared keys have names, it keeps these names, and in the end each of them has a model. -/

namespace ApiGraph

open Resolving Registry

namespace Component

variable {document : Json} {e : Entry} {es : List Entry} {p q : Progress} {r s : Registry}
  {scope : Scope} {R : String → Prop}

/-- Whether a key is the reference of no declared component. -/
def Undeclared (document : Json) (key : String) : Prop := ∀ e ∈ listed document, e.key ≠ key

/-- The registry in which the names of all components are reserved. -/
def base (document : Json) : Registry := (listed document).foldl reserved .empty

theorem reserved_named (r : Registry) (e : Entry) :
    ∃ name, (reserved r e).named.lookup e.key = some name := by
  unfold reserved Registry.reserve
  split
  · next name hn => exact ⟨name, hn⟩
  · exact ⟨_, Dict.lookup_put_self _ _ _⟩

theorem reserved_cases (r : Registry) (e : Entry) : (reserved r e).models = r.models ∧
    (reserved r e).structural = r.structural ∧
    ∀ key name, (reserved r e).named.lookup key = some name →
      key = e.key ∨ r.named.lookup key = some name := by
  unfold reserved Registry.reserve
  split
  · exact ⟨rfl, rfl, fun _ _ => Or.inr⟩
  · exact ⟨rfl, rfl, fun _ _ hk => (lookup_put_cases hk).imp_left And.left⟩

theorem foldl_reserved (r : Registry) (es : List Entry) :
    (es.foldl reserved r).models = r.models ∧ (es.foldl reserved r).structural = r.structural ∧
      ∀ key name, (es.foldl reserved r).named.lookup key = some name →
        (∃ e ∈ es, e.key = key) ∨ r.named.lookup key = some name := by
  induction es generalizing r with
  | nil => exact ⟨rfl, rfl, fun _ _ => Or.inr⟩
  | cons e es ih =>
    obtain ⟨hm, hs, hk⟩ := ih (reserved r e)
    obtain ⟨hm', hs', hk'⟩ := reserved_cases r e
    refine ⟨hm.trans hm', hs.trans hs', fun key name hn => ?_⟩
    rcases hk key name hn with ⟨e', he', rfl⟩ | hn
    · exact Or.inl ⟨e', List.mem_cons_of_mem _ he', rfl⟩
    · exact (hk' key name hn).imp_left fun h => ⟨e, List.mem_cons_self, h.symm⟩

/-- Reservations keep the tables in agreement and reserve a name for each key. -/
theorem coherent_foldl_reserved (hc : Coherent R r) (es : List Entry) :
    Coherent R (es.foldl reserved r) ∧ Grows (fun _ => False) r (es.foldl reserved r) ∧
      ∀ e ∈ es, ∃ name, (es.foldl reserved r).named.lookup e.key = some name := by
  induction es generalizing r with
  | nil => exact ⟨hc, .refl r, by simp⟩
  | cons e es ih =>
    have effect (P : String → Prop) : Effect P r (reserved r e) := reserve_effect r _ _
    have g : Grows (fun _ => False) r (reserved r e) := hc.grows (effect _)
    obtain ⟨hc', g', hn⟩ := ih (hc.step (effect R))
    refine ⟨hc', g.trans g', fun e' he' => ?_⟩
    rcases List.mem_cons.1 he' with rfl | he'
    · obtain ⟨name, hname⟩ := reserved_named r e'
      exact ⟨name, g'.name id hname⟩
    · exact hn e' he'

theorem base_named (he : e ∈ listed document) :
    ∃ name, (base document).named.lookup e.key = some name :=
  (coherent_foldl_reserved (coherent_empty (R := fun _ => True)) _).2.2 e he

theorem key_of_base {key name : String} (h : (base document).named.lookup key = some name) :
    ∃ e ∈ listed document, e.key = key :=
  ((foldl_reserved .empty (listed document)).2.2 key name h).elim id fun h => by cases h

/-- A component is wanted under its own name, or with the word for its group behind it. -/
theorem appends_wanted (he : e ∈ listed document) (r : Registry) : Appends e.name (wanted r e) := by
  have suffixes : groups.all fun g => g.suffix.toList.all Text.isWord := by decide +kernel
  have word := List.all_eq_true.1 suffixes _ (group_of_listed he)
  unfold wanted
  split
  · exact .append (List.all_eq_true.1 word)
  · exact .refl _

theorem names_foldl_reserved (sub : es ⊆ listed document)
    (hr : ∀ key name, r.named.lookup key = some name → Names document name) :
    ∀ key name, (es.foldl reserved r).named.lookup key = some name → Names document name := by
  induction es generalizing r with
  | nil => exact hr
  | cons e es ih =>
    obtain ⟨he, sub⟩ := List.cons_subset.1 sub
    refine ih sub fun key name hn => ?_
    unfold reserved Registry.reserve at hn
    split at hn
    · exact hr key name hn
    · obtain ⟨-, rfl⟩ | hn := lookup_put_cases hn
      · exact ⟨e, he, (appends_wanted he r).trans (appends_freeVariant _ _)⟩
      · exact hr key name hn

/-- Every name that is reserved for a component continues the name of a component. -/
theorem names_of_base {key name : String} (h : (base document).named.lookup key = some name) :
    Names document name :=
  names_foldl_reserved (r := .empty) (List.Subset.refl _) (fun _ _ h => by cases h) key name h

theorem base_models : (base document).models = [] := (foldl_reserved .empty (listed document)).1

theorem base_sound : (base document).Sound (Undeclared document) := by
  refine ⟨(coherent_foldl_reserved coherent_empty _).1, fun key hk e he hek => ?_⟩
  obtain ⟨name, hn⟩ := base_named he
  rw [hek, hk] at hn
  cases hn

/-- Only a node without a reference is resolved into a model. -/
theorem resolve_plain {m : Model}
    (h : Runs (resolve (resolveNode document) scope e) p (.model m) q) :
    e.node.has "$ref" = false := by
  obtain ⟨scope', entries, m, -, hr, -⟩ | ⟨scope', out, ho, hout, -⟩ := resolve_runs h
  · exact hr
  · obtain ⟨depth, hf⟩ := resolveNode_runs ho
    cases hr : e.node.has "$ref" with
    | false => rfl
    | true =>
      have hform : Schema.formOf e.node e.group.hint = .reference := by simp [Schema.formOf, hr]
      simp only [resolveForm, runs_ite, runs_bind, runs_malformed] at hf
      split at hf
      · obtain ⟨_, _, hf, -⟩ := hf
        exact hf.elim
      · rw [hform] at hf
        simp only [runs_bind, runs_pure] at hf
        obtain ⟨_, _, -, rfl, -⟩ := hf
        cases hout

theorem key_ne_empty (e : Entry) : e.key ≠ "" := by
  intro h
  have hp := (String.append_eq_empty_iff.1 h).1
  exact absurd (String.append_eq_empty_iff.1 hp).2 (by decide)

/-- A component is registered under its own key. -/
theorem keyFor_key (raw : Json) (m : Model) (e : Entry) : keyFor .named raw m (some e.key) = e.key := by
  simp [keyFor, key_ne_empty]

/-- Under which conditions components are resolved: the tables agree and all keys have names. -/
structure Ready (document : Json) (es : List Entry) (r : Registry) : Prop where
  sound : r.Sound (Undeclared document)
  named : ∀ e ∈ es, ∃ name, r.named.lookup e.key = some name
  names : ∀ e ∈ es, Names document (canonical r e)

theorem canonical_of_named {name : String} (h : r.named.lookup e.key = some name) :
    canonical r e = name := by
  simp [canonical, lookupRef, h, Ref.named]

theorem Ready.of_grows (h : Ready document es r) (hs : s.Sound (Undeclared document))
    (g : Grows (fun _ => False) r s) : Ready document es s := by
  refine ⟨hs, fun e he => (h.named e he).imp fun name hn => g.name id hn, fun e he => ?_⟩
  obtain ⟨name, hn⟩ := h.named e he
  have given := h.names e he
  rw [canonical_of_named hn] at given
  rwa [canonical_of_named (g.name id hn)]

theorem Ready.extend (h : Ready document es r) (x : r.Extends (Undeclared document) s) :
    Ready document es s :=
  h.of_grows (x h.sound).1 (x h.sound).2.of_new

theorem Ready.sub {few : List Entry} (h : Ready document es r) (sub : few ⊆ es) :
    Ready document few r :=
  ⟨h.sound, fun e he => h.named e (sub he), fun e he => h.names e (sub he)⟩

theorem Ready.tail (h : Ready document (e :: es) r) : Ready document es r :=
  h.sub (List.subset_cons_self _ _)

theorem base_ready (document : Json) : Ready document (listed document) (base document) :=
  ⟨base_sound, fun _ => base_named, fun e he => by
    obtain ⟨name, hn⟩ := base_named he
    exact canonical_of_named hn ▸ names_of_base hn⟩

theorem Ready.titled (h : Ready document (e :: es) r) : Names document (canonical r e) :=
  h.names e List.mem_cons_self

/-- A component with the empty name has taken it. -/
theorem Ready.settled (h : Ready document (e :: es) r) (empty : canonical r e = "") :
    "" ∈ r.taken := by
  obtain ⟨name, hn⟩ := h.named e List.mem_cons_self
  rw [canonical_of_named hn] at empty
  exact h.sound.1.taken_of_key (empty ▸ hn)

/-- A name that is reserved for a component and has no model yet. -/
def Outstanding (document : Json) (r : Registry) (name : String) : Prop :=
  ∃ e ∈ listed document, r.named.lookup e.key = some name ∧ r.contains name = false

/-- No name becomes outstanding. -/
theorem Ready.outstanding {name : String} (h : Ready document (listed document) r)
    (g : Grows (fun _ => False) r s) (ho : Outstanding document s name) :
    Outstanding document r name := by
  obtain ⟨e, he, hn, hc⟩ := ho
  obtain ⟨known, hk⟩ := h.named e he
  rw [g.name id hk] at hn
  obtain rfl := Option.some.inj hn
  refine ⟨e, he, hk, Bool.eq_false_iff.2 fun hr => ?_⟩
  rw [g.contains hr] at hc
  cases hc

theorem Resolves.plain {m : Model} {space : KeySpace} (h : Resolves document space e (.model m)) :
    e.node.has "$ref" = false := by
  obtain ⟨scope, p, q, -, h⟩ := h
  exact resolve_plain h

/-- Components are resolved one after the other, and leave the parts of their models. -/
theorem resolveEach_traversed (T : Traversal document) {resolved : List (Entry × Link Model)}
    (hr : Ready document es p.registry)
    (h : Runs (resolveEach (resolveNode document) scope es) p resolved q) :
    T.parts none p.registry (resolved.flatMap fun x => x.2.inner) [] q.registry ∧
      resolved.map Prod.fst = es ∧ ∀ x ∈ resolved, Resolves document scope.space x.1 x.2 := by
  induction es generalizing p resolved with
  | nil =>
    obtain ⟨rfl, rfl⟩ := runs_pure.1 h
    exact ⟨T.nothing, rfl, by simp⟩
  | cons e es ih =>
    obtain ⟨link, more, s, hl, hm, rfl⟩ := resolveEach_runs h
    have here := Traversal.resolveComponent (T := T) hr.settled hr.titled hl
    have x := Traversal.resolveComponent (T := extension document (Undeclared document)) hr.settled hr.titled hl
    obtain ⟨hp, hes, hres⟩ := ih (hr.tail.extend x) hm
    refine ⟨T.append here hp, by simp [hes], fun y hy => ?_⟩
    rcases List.mem_cons.1 hy with rfl | hy
    · exact ⟨scope, p, s, rfl, hl⟩
    · exact hres y hy

/-- A model that is registered for a component gets the name of the component. -/
theorem contains_of_assert {raw : Json} {m : Model} {location name : String} {found : Resolved}
    (plain : raw.has "$ref" = false) (hn : r.named.lookup e.key = some name)
    (ha : r.assert raw (.model m) (some e.key) .named location = .ok (found, s)) :
    s.contains name = true := by
  have ha := assert_model plain ha
  rw [keyFor_key] at ha
  have hcont := contains_of_register hn m
  rwa [ha] at hcont

/-- What is kept by each registration of a component is kept by all. -/
theorem register_induction {I : Registry → Prop} {resolved : List (Entry × Link Model)}
    (hr : Ready document es p.registry) (hes : ∀ x ∈ resolved, x.1 ∈ es)
    (hplain : ∀ e m, (e, Link.model m) ∈ resolved → e.node.has "$ref" = false)
    (step : ∀ e m r s location found, (e, Link.model m) ∈ resolved → Ready document es r →
      I r → r.assert e.node (.model m) (some e.key) .named location = .ok (found, s) → I s)
    (start : I p.registry) (h : Runs (resolved.forM register) p () q) :
    I q.registry ∧ p.registry.Extends (Undeclared document) q.registry ∧
      ∀ e m name, (e, Link.model m) ∈ resolved → p.registry.named.lookup e.key = some name →
        q.registry.contains name = true := by
  induction resolved generalizing p with
  | nil =>
    obtain ⟨-, rfl⟩ := runs_pure.1 h
    exact ⟨start, .refl _, by simp⟩
  | cons pair rest ih =>
    obtain ⟨e, link⟩ := pair
    change Runs (register (e, link) >>= fun _ => rest.forM register) p () q at h
    simp only [runs_bind] at h
    obtain ⟨u, s, hreg, hrest⟩ := h
    have ih' {p : Progress} (hr : Ready document es p.registry) (hi : I p.registry)
        (h : Runs (rest.forM register) p () q) := ih hr
      (fun x hx => hes x (List.mem_cons_of_mem _ hx))
      (fun e m hm => hplain e m (List.mem_cons_of_mem _ hm))
      (fun e m r s l f hm => step e m r s l f (List.mem_cons_of_mem _ hm)) hi h
    obtain ⟨⟨ref, rfl⟩, rfl⟩ | ⟨m, found, t, rfl, ha, rfl⟩ := register_runs hreg
    · obtain ⟨hi, hx, hc⟩ := ih' hr start hrest
      refine ⟨hi, hx, fun e' m' name hm hn => ?_⟩
      rcases List.mem_cons.1 hm with hm | hm
      · cases hm
      · exact hc e' m' name hm hn
    · have x : p.registry.Extends (Undeclared document) t := extends_assert ha
      obtain ⟨hi, hx, hc⟩ := ih' (hr.extend x) (step e m _ _ _ _ (by simp) hr start ha) hrest
      have g : Grows (fun _ => False) p.registry t := (x hr.sound).2.of_new
      refine ⟨hi, x.trans hx, fun e' m' name hm hn => ?_⟩
      rcases List.mem_cons.1 hm with hm | hm
      · cases hm
        exact (hx (x hr.sound).1).2.contains (contains_of_assert (hplain e m (by simp)) hn ha)
      · exact hc e' m' name hm (g.name id hn)

/-- The same for aliases, each of which is registered when its target has a model. -/
theorem aliased_induction {I : Registry → Prop} {order : List (Entry × Ref)}
    (hr : Ready document es p.registry) (hes : ∀ x ∈ order, x.1 ∈ es)
    (step : ∀ e ref m r s location found, (e, ref) ∈ order → Ready document es r →
      aliasModel r e (canonical r e) location ref = some m → I r →
      r.assert .null (.model m) (some e.key) .named location = .ok (found, s) → I s)
    (start : I p.registry) (h : Aliased order p q) :
    I q.registry ∧ p.registry.Extends (Undeclared document) q.registry ∧
      ∀ e ref name, (e, ref) ∈ order → p.registry.named.lookup e.key = some name →
        q.registry.contains name = true := by
  induction h with
  | done => exact ⟨start, .refl _, by simp⟩
  | @next e ref rest p q s first more ih =>
    obtain ⟨hb, -⟩ | ⟨m, location, found, t, -, hm, ha, rfl⟩ := registerAlias_runs first
    · cases hb
    have x : p.registry.Extends (Undeclared document) t := extends_assert ha
    obtain ⟨hi, hx, hc⟩ := ih (hr.extend x) (fun x hx => hes x (List.mem_cons_of_mem _ hx))
      (fun e ref m r s l f hmem => step e ref m r s l f (List.mem_cons_of_mem _ hmem))
      (step e ref m _ _ _ _ (by simp) hr hm start ha)
    have g : Grows (fun _ => False) p.registry t := (x hr.sound).2.of_new
    refine ⟨hi, x.trans hx, fun e' ref' name hmem hn => ?_⟩
    rcases List.mem_cons.1 hmem with hmem | hmem
    · cases hmem
      exact (hx (x hr.sound).1).2.contains (contains_of_assert (by rfl) hn ha)
    · exact hc e' ref' name hmem (g.name id hn)

/-- A registry after the collection of components: every component has a model under the name
that was reserved for it. -/
structure Collected (document : Json) (r : Registry) : Prop where
  extended : (base document).Extends (Undeclared document) r
  ready : Ready document (listed document) r
  model : ∀ {e name}, e ∈ listed document → r.named.lookup e.key = some name → r.contains name = true

/-- The aliases are the components that were resolved into handles. -/
theorem mem_aliases {resolved : List (Entry × Link Model)} {x : Entry × Ref}
    (h : x ∈ aliases resolved) : (x.1, Link.ref x.2) ∈ resolved := by
  obtain ⟨⟨e, link⟩, hy, hxy⟩ := List.mem_filterMap.1 h
  cases link with
  | model m => cases hxy
  | ref ref =>
    cases hxy
    exact hy

/-- What each step of a collection keeps holds in the end. -/
theorem collect_induction (T : Traversal document) {I : List (Link Model) → Registry → Prop}
    (start : I [] (base document))
    (traverse : ∀ links r s, Ready document (listed document) r → T.parts none r links [] s →
      I [] r → I links s)
    (declare : ∀ links e m r s location found, e ∈ listed document →
      Resolves document scope.space e (.model m) → Ready document (listed document) r → m.inner ⊆ links →
      I links r →
      r.assert e.node (.model m) (some e.key) .named location = .ok (found, s) → I links s)
    (copy : ∀ links e ref m r s location found, e ∈ listed document →
      Resolves document scope.space e (.ref ref) → Ready document (listed document) r →
      aliasModel r e (canonical r e) location ref = some m → I links r →
      r.assert .null (.model m) (some e.key) .named location = .ok (found, s) → I links s)
    (hp : p.registry = .empty) (h : Runs (collect document (resolveNode document) scope) p () q) :
    (∃ links, I links q.registry) ∧ Collected document q.registry := by
  obtain ⟨resolved, s, t, order, he, hf, ho, hperm⟩ := collect_runs h
  rw [hp] at he
  obtain ⟨hT, hes, hres⟩ := resolveEach_traversed T (base_ready document) he
  obtain ⟨hx, -, -⟩ := resolveEach_traversed (extension document (Undeclared document))
    (base_ready document) he
  have hs : Ready document (listed document) s.registry := (base_ready document).extend hx
  have hmem : ∀ x ∈ resolved, x.1 ∈ listed document := fun x hm => hes ▸ List.mem_map_of_mem hm
  have hinner {e : Entry} {m : Model} (hm : (e, Link.model m) ∈ resolved) :
      m.inner ⊆ resolved.flatMap fun x => x.2.inner :=
    fun l hl => List.mem_flatMap.2 ⟨_, hm, hl⟩
  have hplain : ∀ e m, (e, Link.model m) ∈ resolved → e.node.has "$ref" = false :=
    fun e m hm => Resolves.plain (hres (e, .model m) hm)
  obtain ⟨hi, hx₁, hc₁⟩ := register_induction hs hmem hplain
    (fun e m r s l f hm hr hi ha =>
      declare _ e m r s l f (hmem _ hm) (hres (e, .model m) hm) hr (hinner hm) hi ha)
    (traverse _ _ _ (base_ready document) hT start) hf
  have hmem' : ∀ x ∈ order, x.1 ∈ listed document ∧ Resolves document scope.space x.1 (.ref x.2) := by
    intro x hx
    have hy := mem_aliases (hperm.mem_iff.1 hx)
    exact ⟨hmem _ hy, hres (x.1, .ref x.2) hy⟩
  have copied : ∀ e ref m r s location found, (e, ref) ∈ order → Ready document (listed document) r →
      aliasModel r e (canonical r e) location ref = some m →
      I (resolved.flatMap fun x => x.2.inner) r →
      r.assert .null (.model m) (some e.key) .named location = .ok (found, s) →
      I (resolved.flatMap fun x => x.2.inner) s :=
    fun e ref m r s location found hm => copy _ e ref m r s location found (hmem' _ hm).1 (hmem' _ hm).2
  obtain ⟨hi, hx₂, hc₂⟩ := aliased_induction (hs.extend hx₁) (fun x hx => (hmem' x hx).1) copied hi ho
  have hx : (base document).Extends (Undeclared document) q.registry := (hx.trans hx₁).trans hx₂
  refine ⟨⟨_, hi⟩, hx, (base_ready document).extend hx, fun {e name} hmem hn => ?_⟩
  have hq := (hx₂ (hs.extend hx₁).sound).2
  obtain ⟨name', hn'⟩ := hs.named e hmem
  have hg : Grows (fun _ => False) s.registry q.registry := ((hx₁.trans hx₂) hs.sound).2.of_new
  obtain rfl : name' = name := by
    rw [hg.name id hn'] at hn
    exact Option.some.inj hn
  obtain ⟨⟨e', link⟩, hm, rfl⟩ := List.mem_map.1 (hes ▸ hmem)
  cases link with
  | model m => exact hq.contains (hc₁ e' m name' hm hn')
  | ref ref =>
    have ha : (e', ref) ∈ order := hperm.mem_iff.2 (List.mem_filterMap.2 ⟨_, hm, rfl⟩)
    have hg₁ : Grows (fun _ => False) s.registry t.registry := (hx₁ hs.sound).2.of_new
    exact hc₂ e' ref name' ha (hg₁.name id hn')

theorem collect_collected (hp : p.registry = .empty)
    (h : Runs (collect document (resolveNode document) scope) p () q) :
    Collected document q.registry :=
  (collect_induction (extension document (Undeclared document)) (I := fun _ _ => True) trivial
    (fun _ _ _ _ _ _ => trivial) (fun _ _ _ _ _ _ _ _ _ _ _ _ _ => trivial)
    (fun _ _ _ _ _ _ _ _ _ _ _ _ _ _ => trivial) hp h).2

end Component

end ApiGraph
