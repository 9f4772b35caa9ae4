import ApiGraph.Proofs.Distinct
import ApiGraph.Proofs.Graph

/-! The names of the models of an accepted document. Two models with the same name are the same
model, but for those whose name was taken while their parts were resolved. -/

namespace ApiGraph

open Resolving Registry

/-- A model of a snapshot: a registered one, or one that stands inside of another. -/
def Snapshot.Reaches (s : Snapshot) (m : Model) : Prop :=
  (Link.model m).Within ((Dict.values s.models).map .model)

variable {document : Json} {p q : Progress} {scope : Scope} {τ : Type} {g g' : Graph τ}
  {r s : Registry} {links : List (Link Model)}

namespace Component

theorem distinct_base (document : Json) :
    Distinct document (Outstanding document (base document)) (base document) [] := by
  have nobody {m : Model} : ¬ (base document).Holds [] m := by
    simp [Holds, Registry.links, base_models, Dict.values]
  refine ⟨fun hm => (nobody hm).elim, fun hm => (nobody hm).elim, fun pending => ?_,
    fun hm => (nobody hm).elim, fun hk hh => ?_⟩
  · obtain ⟨_, _, hn, _⟩ := pending
    exact (base_sound : (base document).Sound (Undeclared document)).1.taken_of_key hn
  · obtain ⟨e, -, rfl⟩ := key_of_base hk
    exact absurd (head_key e) hh

/-- A model that is registered for a component is enrolled under the name that is reserved for the
component, unless there is one already. -/
theorem assert_declared {e : Entry} {m : Model} {raw : Json} {location : String} {found : Resolved}
    (he : e ∈ listed document) (hr : Ready document (listed document) r)
    (ha : r.assert raw (.model m) (some e.key) .named location = .ok (found, s)) :
    s = r ∨ ∃ name, r.named.lookup e.key = some name ∧ r.contains name = false ∧
      s = (r.enrol name m).2 := by
  obtain same | ⟨k, hk, registered⟩ := assert_cases ha
  · exact .inl same
  obtain rfl := Link.model.inj hk
  rw [keyFor_key] at registered
  obtain ⟨name, hn⟩ := hr.named e he
  obtain same | ⟨absent, enrolled⟩ :=
    register_known (m := m) (show r.indexed .named e.key = some name from hn)
  · exact .inl ((congrArg Prod.snd registered).symm.trans same)
  · exact .inr ⟨name, hn, absent, (congrArg Prod.snd registered).symm.trans enrolled⟩

/-- The registration of a component settles the name that is reserved for it. -/
theorem distinct_assert {e : Entry} {m : Model} {raw : Json} {location : String} {found : Resolved}
    (he : e ∈ listed document) (hr : Ready document (listed document) r)
    (inner : ∀ k, (Link.model k).Within m.inner → r.Holds links k)
    (hd : Distinct document (Outstanding document r) r links)
    (ha : r.assert raw (.model m) (some e.key) .named location = .ok (found, s)) :
    Distinct document (Outstanding document s) s links := by
  have g := (extends_assert ha hr.sound).2
  obtain rfl | ⟨name, hn, absent, rfl⟩ := assert_declared he hr ha
  · exact hd
  · have pending : Outstanding document r name := ⟨e, he, hn, absent⟩
    refine hd.enter g rfl absent inner (hd.awaited pending) (fun hk same => hd.free hk (same ▸ pending))
      (fun {x} hx => ⟨hr.outstanding g.of_new hx, ?_⟩) .inl
    rintro rfl
    obtain ⟨-, -, -, outstanding⟩ := hx
    rw [(contains_put rfl).2 (Or.inl rfl)] at outstanding
    cases outstanding

/-- The model of an alias embeds what its target embeds. -/
theorem holds_aliasModel {e : Entry} {name location : String} {ref : Ref} {m k : Model}
    (h : aliasModel r e name location ref = some m) (hk : (Link.model k).Within m.inner) :
    r.Holds links k := by
  obtain ⟨-, rfl⟩ | ⟨known, found, hl, rfl⟩ := aliasModel_cases h
  · cases Link.within_ref.1 hk
  · have holds : r.Holds links found := .of_lookup hl
    exact Link.Within.trans holds hk

/-- The models of all components have names of their own. -/
theorem distinct_collect (hp : p.registry = .empty)
    (h : Runs (collect document (resolveNode document) scope) p () q) :
    Distinct document (fun _ => False) q.registry [] ∧ q.registry.Sound (Undeclared document) := by
  obtain ⟨⟨links, hd⟩, collected⟩ := collect_induction (distinction document)
    (I := fun links r => Distinct document (Outstanding document r) r links) (distinct_base document)
    (fun links r s hr hl hd => ((hl.2 hr.sound nofun).1 _ _ hd).narrow
      fun ho => hr.outstanding (hl.1 hr.sound).2.of_new ho)
    (fun links e m r s location found he _ hr hs hd ha =>
      distinct_assert he hr (fun k hk => holds_iff.2 (Or.inr (hk.sub hs))) hd ha)
    (fun links e ref m r s location found he _ hr hm hd ha =>
      distinct_assert he hr (fun k hk => holds_aliasModel hm hk) hd ha) hp h
  exact ⟨(hd.sub (List.nil_subset _)).narrow fun hx => hx.elim, collected.ready.sound⟩

end Component

/-- Names tell the models of an accepted document apart, but for those that were overtaken. -/
theorem Graph.Accepts.distinct (h : Graph.Accepts g document g') :
    Distinct document (fun _ => False) g'.registry [] := by
  obtain ⟨s, t, walked, hc, hp, hr, -⟩ := h.walked
  obtain ⟨hd, sound⟩ := Component.distinct_collect rfl hc
  have paths := Traversal.resolvePaths (T := distinction document) hp
  rw [hr]
  exact ((paths.2 sound nofun).1 _ _ hd).sub (List.nil_subset _)

theorem Graph.Accepts.holds (h : Graph.Accepts g document g') {m : Model} :
    g'.snapshot.Reaches m ↔ g'.registry.Holds [] m := by
  obtain ⟨s, t, walked, -, -, hr, -, -, hs⟩ := h.walked
  rw [hs, hr, Holds, List.append_nil]
  rfl

/-- The models of an accepted document are told apart by their names, exactly if none of them that
was overtaken shares its name with another one. -/
theorem names_determine_models (h : Graph.Accepts g document g') :
    (∀ m k, g'.snapshot.Reaches m → g'.snapshot.Reaches k → m.name = k.name → m = k) ↔
    ∀ m k, g'.snapshot.Reaches m → g'.snapshot.Reaches k → m.name = k.name →
      Overtaken document g'.registry m → m = k := by
  constructor
  · intro unique m k hm hk he _
    exact unique m k hm hk he
  · intro overtaken m k hm hk he
    obtain hu | ho | ho := h.distinct.unique (h.holds.1 hm) (h.holds.1 hk) he
    · exact hu
    · exact overtaken m k hm hk he ho
    · exact (overtaken k m hk hm he.symm ho).symm

/-- A description with a schema that nests a property in a property. -/
def nestedProperty (property : String) : Json :=
  .obj [("openapi", .str "3.0.0"),
    ("components", .obj [("schemas", .obj [("A", .obj [("properties", .obj [
      ("b", .obj [("properties", .obj [(property, .obj [])])])])])])])]

/-- The change of an empty graph that reads the description. -/
def nestedProperty.change (property : String) : Graph.Change Unit :=
  Graph.empty.parse (nestedProperty property) none

theorem nestedProperty.accepts {property : String} (h : (change property).outcome.isOk = true) :
    Graph.Accepts Graph.empty (nestedProperty property) (change property).graph := by
  refine .json ?_
  change (change property).outcome = _
  generalize (change property).outcome = x at h
  cases x with
  | error f => cases h
  | ok u => rfl

/-- The models that registered models embed, with the numbers of their fields. -/
def Snapshot.embedded (s : Snapshot) : List (String × Nat) :=
  ((Dict.values s.models).flatMap Model.inner).filterMap fun
    | .model m => some (m.name, m.fields.length)
    | .ref _ => none

theorem Snapshot.reaches_of_embedded {s : Snapshot} {x : String × Nat} (h : x ∈ s.embedded) :
    ∃ m, s.Reaches m ∧ m.name = x.1 ∧ m.fields.length = x.2 := by
  simp only [embedded, List.mem_filterMap, List.mem_flatMap] at h
  obtain ⟨link, ⟨owner, ho, hl⟩, hx⟩ := h
  cases link with
  | ref r => cases hx
  | model m =>
    obtain rfl := Option.some.inj hx
    exact ⟨m, .inside (List.mem_map_of_mem ho) (.here hl), rfl, rfl⟩

/-- Named properties make names that differ. -/
theorem names_determine_models_nested :
    Graph.Accepts Graph.empty (nestedProperty "c") (nestedProperty.change "c").graph ∧
      (nestedProperty.change "c").graph.snapshot.embedded = [("ABC", 0), ("AB", 1)] ∧
      ((∀ m k, (nestedProperty.change "c").graph.snapshot.Reaches m →
          (nestedProperty.change "c").graph.snapshot.Reaches k → m.name = k.name → m = k) ↔
        ∀ m k, (nestedProperty.change "c").graph.snapshot.Reaches m →
          (nestedProperty.change "c").graph.snapshot.Reaches k → m.name = k.name →
          Overtaken (nestedProperty "c") (nestedProperty.change "c").graph.registry m → m = k) := by
  have accepted : Graph.Accepts Graph.empty (nestedProperty "c") (nestedProperty.change "c").graph :=
    nestedProperty.accepts (by decide +kernel)
  exact ⟨accepted, by decide +kernel, names_determine_models accepted⟩

/-- A property whose name has no character that counts gives its model the name of the model that
holds it. -/
theorem name_of_two_models :
    (nestedProperty.change "-").outcome.isOk = true ∧
      ∃ m k, (nestedProperty.change "-").graph.snapshot.Reaches m ∧
        (nestedProperty.change "-").graph.snapshot.Reaches k ∧ m.name = k.name ∧ m ≠ k := by
  have embedded : (nestedProperty.change "-").graph.snapshot.embedded = [("AB", 0), ("AB", 1)] := by
    decide +kernel
  obtain ⟨m, hm, hmn, hmf⟩ := Snapshot.reaches_of_embedded (embedded ▸ List.mem_cons_self)
  obtain ⟨k, hk, hkn, hkf⟩ := Snapshot.reaches_of_embedded
    (embedded ▸ List.mem_cons_of_mem _ List.mem_cons_self)
  refine ⟨by decide +kernel, m, k, hm, hk, hmn.trans hkn.symm, fun he => ?_⟩
  rw [he, hkf] at hmf
  cases hmf

/-- In particular they are told apart if no pointer was followed and no field without a name that
counts has the name of its own model as its type. -/
theorem names_determine_models_of_plain (h : Graph.Accepts g document g')
    (pointers : ∀ text, g'.registry.named.lookup text ≠ none →
      Component.Undeclared document text → Pointer.resolve document text = none)
    (fields : ∀ m, g'.snapshot.Reaches m → ∀ f ∈ m.fields, f.isNameless → f.type ≠ some m.name)
    {m k : Model} (hm : g'.snapshot.Reaches m) (hk : g'.snapshot.Reaches k) (he : m.name = k.name) :
    m = k := by
  have plain {m : Model} (hm : g'.snapshot.Reaches m) : ¬ Overtaken document g'.registry m := by
    rintro (⟨f, hf, hn, ht⟩ | ⟨text, target, hk, hu, ht, -⟩)
    · exact fields m hm f hf hn ht
    · rw [pointers text hk hu] at ht
      cases ht
  obtain hu | ho | ho := h.distinct.unique (h.holds.1 hm) (h.holds.1 hk) he
  · exact hu
  · exact (plain hm ho).elim
  · exact (plain hk ho).elim

end ApiGraph
