import ApiGraph.Proofs.Resolve.Node
import ApiGraph.Resolve.Component

/-! What a successful collection of components has done: all names were reserved, every component
was resolved under its name, and models and then aliases were registered under the reserved
names. -/

namespace ApiGraph

open Resolving

namespace Component

variable {document : Json} {self : Resolver} {scope : Scope} {p q : Progress} {e : Entry}
  {link : Link Model}

/-- The components of one group. -/
def listedIn (components : Json) (group : Group) : List Entry :=
  match components.get group.key with
  | .obj entries => entries.map fun entry => ⟨group, entry.1, entry.2⟩
  | _ => []

/-- The components that a document declares, group by group. -/
def listed (document : Json) : List Entry := groups.flatMap (listedIn (document.get "components"))

theorem group_of_listedIn {components : Json} {group : Group} (he : e ∈ listedIn components group) :
    e.group = group := by
  unfold listedIn at he
  split at he
  · obtain ⟨entry, -, rfl⟩ := List.mem_map.1 he
    rfl
  · cases he

theorem group_of_listed (he : e ∈ listed document) : e.group ∈ groups := by
  obtain ⟨group, hg, he⟩ := List.mem_flatMap.1 he
  exact group_of_listedIn he ▸ hg

theorem entriesOf_runs {components : Json} {group : Group} {es : List Entry}
    (h : Runs (entriesOf components group) p es q) :
    q = p ∧ es = listedIn components group := by
  unfold entriesOf at h
  unfold listedIn
  split at h
  · next hv =>
    obtain ⟨rfl, rfl⟩ := runs_pure.1 h
    exact ⟨rfl, by rw [hv]⟩
  · next entries hv =>
    obtain ⟨rfl, rfl⟩ := runs_pure.1 h
    exact ⟨rfl, by rw [hv]⟩
  · exact (runs_malformed.1 h).elim

theorem entriesOf_mapM_runs {components : Json} {gs : List Group} {ess : List (List Entry)}
    (h : Runs (gs.mapM (entriesOf components)) p ess q) :
    q = p ∧ ess.flatten = gs.flatMap (listedIn components) := by
  induction gs generalizing ess p with
  | nil =>
    obtain ⟨rfl, rfl⟩ := runs_pure.1 h
    exact ⟨rfl, rfl⟩
  | cons group gs ih =>
    rw [List.mapM_cons] at h
    simp only [runs_bind, runs_pure] at h
    obtain ⟨es, _, he, rest, _, hr, rfl, rfl⟩ := h
    obtain ⟨rfl, rfl⟩ := entriesOf_runs he
    obtain ⟨rfl, hf⟩ := ih hr
    exact ⟨rfl, by rw [List.flatten_cons, hf, List.flatMap_cons]⟩

theorem declared_runs {es : List Entry} (h : Runs (declared document) p es q) :
    q = p ∧ es = listed document := by
  simp only [declared, runs_ite, runs_bind, runs_malformed, runs_pure] at h
  split at h
  · next ht =>
    obtain ⟨rfl, rfl⟩ := h
    refine ⟨rfl, ?_⟩
    have hn : ∀ key, (document.get "components").get key = .null := by
      intro key
      cases hc : document.get "components" <;> simp_all [Json.truthy, Json.get, Json.get?]
    simp [listed, listedIn, hn]
  · split at h
    · obtain ⟨_, _, hf, -⟩ := h
      exact hf.elim
    · obtain ⟨ess, _, hm, rfl, rfl⟩ := h
      exact entriesOf_mapM_runs hm

/-- The name that a component asks for. -/
def wanted (r : Registry) (e : Entry) : String :=
  if r.isTaken e.name then e.name ++ e.group.suffix else e.name

/-- The registry after a component reserved its name. -/
def reserved (r : Registry) (e : Entry) : Registry := (r.reserve e.key (wanted r e)).2

/-- Reservations never fail. -/
theorem reserve_forM_run (es : List Entry) (p : Progress) : (es.forM reserve).run.run p =
    (.ok (), { p with registry := es.foldl reserved p.registry }) := by
  induction es generalizing p with
  | nil => rfl
  | cons e es ih =>
    have first : Runs (reserve e) p () { p with registry := reserved p.registry e } := rfl
    exact (first.run_bind fun _ => es.forM reserve).trans (ih _)

theorem reserve_forM_runs {es : List Entry} {u : Unit} (h : Runs (es.forM reserve) p u q) :
    q = { p with registry := es.foldl reserved p.registry } :=
  congrArg Prod.snd (h.symm.trans (reserve_forM_run es p))

/-- The name under which a component is registered. -/
def canonical (r : Registry) (e : Entry) : String := ((r.lookupRef e.key).map Ref.name).getD e.name

theorem canonicalName_runs {name : String} (h : Runs (canonicalName e) p name q) :
    q = p ∧ name = canonical p.registry e := by
  simp only [canonicalName, runs_bind, runs_registry, runs_pure] at h
  obtain ⟨_, _, ⟨rfl, rfl⟩, rfl, rfl⟩ := h
  exact ⟨rfl, rfl⟩

/-- The node that the model of a component is made from: that of a header has its name and its
place. -/
def Entry.source (e : Entry) : Json :=
  match e.node with
  | .obj entries => if e.group.key = "headers" then Header.asParameter e.name entries else e.node
  | _ => e.node

theorem Entry.source_of_headers {entries : List (String × Json)} (hn : e.node = .obj entries)
    (hg : e.group.key = "headers") : e.source = Header.asParameter e.name entries := by
  rw [source, hn]
  exact if_pos hg

theorem Entry.source_of_ne (h : ∀ entries, e.node = .obj entries → e.group.key ≠ "headers") :
    e.source = e.node := by
  unfold source
  split
  · next entries hn => exact if_neg (h entries hn)
  · rfl

/-- A header component is resolved as a parameter, any other as a node of its group. -/
theorem resolve_runs (h : Runs (resolve self scope e) p link q) :
    (∃ scope' entries m, e.node = .obj entries ∧ e.node.has "$ref" = false ∧
      Runs (Parameter.resolve self scope' (canonical p.registry e)
        (Header.asParameter e.name entries)) p m q ∧ link = .model m ∧
      e.group.key = "headers") ∨
    ∃ scope' out, Runs (self { Site.ofOwner scope' (canonical p.registry e) with
        hint := e.group.hint } e.node) p out q ∧ link = out.result ∧ scope'.space = scope.space ∧
      (e.node.has "$ref" = false → e.source = e.node) := by
  simp only [resolve, runs_bind] at h
  obtain ⟨_, _, hn, h⟩ := h
  obtain ⟨rfl, rfl⟩ := canonicalName_runs hn
  split at h
  · next entries he =>
    rw [runs_ite] at h
    split at h
    · next hc =>
      simp only [runs_bind, runs_pure] at h
      obtain ⟨m, _, hm, rfl, rfl⟩ := h
      simp only [Bool.and_eq_true, Bool.not_eq_true', decide_eq_true_eq] at hc
      exact Or.inl ⟨_, entries, m, he, hc.2, hm, rfl, hc.1⟩
    · next hc =>
      simp only [runs_bind, runs_pure] at h
      obtain ⟨out, _, ho, rfl, rfl⟩ := h
      refine Or.inr ⟨_, out, ho, rfl, rfl, fun plain => Entry.source_of_ne fun _ _ hg => hc ?_⟩
      rw [plain, hg]
      rfl
  · next other =>
    simp only [runs_bind, runs_pure] at h
    obtain ⟨out, _, ho, rfl, rfl⟩ := h
    exact Or.inr ⟨_, out, ho, rfl, rfl, fun _ => Entry.source_of_ne fun entries he =>
      absurd he (other entries)⟩

theorem resolveEach_runs {rest : List Entry} {resolved : List (Entry × Link Model)}
    (h : Runs (resolveEach self scope (e :: rest)) p resolved q) :
    ∃ link more s, Runs (resolve self scope e) p link s ∧
      Runs (resolveEach self scope rest) s more q ∧ resolved = (e, link) :: more := by
  unfold resolveEach at h
  simp only [runs_bind, runs_pure] at h
  obtain ⟨link, s, hl, more, _, hm, rfl, rfl⟩ := h
  exact ⟨link, more, s, hl, hm, rfl⟩

theorem register_runs {u : Unit} (h : Runs (register (e, link)) p u q) :
    ((∃ ref, link = .ref ref) ∧ q = p) ∨ ∃ m found r, link = .model m ∧
      p.registry.assert e.node (.model m) (some e.key) .named (m.location.getD "") =
        .ok (found, r) ∧ q = { p with registry := r } := by
  cases link with
  | ref ref => exact Or.inl ⟨⟨ref, rfl⟩, (runs_pure.1 h).2.symm⟩
  | model m =>
    simp only [register, runs_bind, runs_assert, runs_pure] at h
    obtain ⟨found, _, ⟨r, ha, rfl⟩, -, rfl⟩ := h
    exact Or.inr ⟨m, found, r, rfl, ha, rfl⟩

/-- Where the model of a component stands. -/
def Entry.place (r : Registry) (e : Entry) : String := s!"components.{e.group.key}.{canonical r e}"

/-- The model of an alias stands for a remote reference, or is a copy of a registered model. -/
theorem aliasModel_cases {r : Registry} {name location : String} {ref : Ref} {m : Model}
    (h : aliasModel r e name location ref = some m) :
    (ref.isRemote = true ∧ m = { Model.blank name .schema with
      source := e.node
      location := some location
      type := some ref.name
      subtype := .str "object"
      dependencies := [.ref ref] }) ∨
    ∃ known target, r.models.lookup known = some target ∧
      m = { target with name := name, location := some location } := by
  unfold aliasModel at h
  split at h
  · next remote => exact Or.inl ⟨remote, (Option.some.inj h).symm⟩
  · obtain ⟨target, ht, rfl⟩ := Option.map_eq_some_iff.1 h
    obtain ⟨found, hf, ht⟩ := Option.bind_eq_some_iff.1 ht
    unfold Registry.resolve at hf
    obtain ⟨_, hk, rfl⟩ := Option.map_eq_some_iff.1 hf
    obtain rfl := Option.some.inj ht
    exact Or.inr ⟨_, _, hk, rfl⟩

/-- An alias is registered under its own name as soon as its target has a model. -/
theorem runs_registerAlias {ref : Ref} {b : Bool} : Runs (registerAlias e ref) p b q ↔
    match aliasModel p.registry e (canonical p.registry e) (e.place p.registry) ref with
    | none => b = false ∧ p = q
    | some m => ∃ found r, p.registry.assert .null (.model m) (some e.key) .named
        (e.place p.registry) = .ok (found, r) ∧ b = true ∧ { p with registry := r } = q := by
  have name : Runs (canonicalName e) p (canonical p.registry e) p := by
    simp only [canonicalName, runs_bind, runs_registry, runs_pure]
    exact ⟨_, p, ⟨rfl, rfl⟩, rfl, rfl⟩
  have known : Runs registry p p.registry p := runs_registry.2 ⟨rfl, rfl⟩
  unfold registerAlias Runs
  rw [name.run_bind, known.run_bind]
  change Runs (match aliasModel p.registry e (canonical p.registry e) (e.place p.registry) ref with
    | none => return false
    | some m => do
      let _ ← assert .null (.model m) (some e.key) .named (e.place p.registry)
      return true) p b q ↔ _
  cases aliasModel p.registry e (canonical p.registry e) (e.place p.registry) ref with
  | none => exact runs_pure
  | some m =>
    simp only [runs_bind, runs_assert, runs_pure]
    constructor
    · rintro ⟨found, _, ⟨r, ha, rfl⟩, rfl, rfl⟩
      exact ⟨found, r, ha, rfl, rfl⟩
    · rintro ⟨found, r, ha, rfl, rfl⟩
      exact ⟨found, _, ⟨r, ha, rfl⟩, rfl, rfl⟩

theorem registerAlias_runs {ref : Ref} {b : Bool} (h : Runs (registerAlias e ref) p b q) :
    (b = false ∧ q = p) ∨ ∃ m location found r, b = true ∧
      aliasModel p.registry e (canonical p.registry e) location ref = some m ∧
      p.registry.assert .null (.model m) (some e.key) .named location = .ok (found, r) ∧
      q = { p with registry := r } := by
  have h := runs_registerAlias.1 h
  split at h
  · exact Or.inl ⟨h.1, h.2.symm⟩
  · next m hm =>
    obtain ⟨found, r, ha, rfl, rfl⟩ := h
    exact Or.inr ⟨m, _, found, r, rfl, hm, ha, rfl⟩

/-- A change of the state that registers one alias after the other, each when its target has a
model. -/
inductive Aliased : List (Entry × Ref) → Progress → Progress → Prop
  | done {p : Progress} : Aliased [] p p
  | next {e : Entry} {ref : Ref} {rest : List (Entry × Ref)} {p q s : Progress}
    (first : Runs (registerAlias e ref) p true s) (more : Aliased rest s q) :
    Aliased ((e, ref) :: rest) p q

theorem Aliased.append {as bs : List (Entry × Ref)} {p q s : Progress} (h₁ : Aliased as p s)
    (h₂ : Aliased bs s q) : Aliased (as ++ bs) p q := by
  induction h₁ with
  | done => exact h₂
  | next first _ ih => exact .next first (ih h₂)

/-- A round registers some of the pending aliases and keeps the others. -/
theorem aliasRound_runs {pending kept : List (Entry × Ref)}
    (h : Runs (aliasRound pending) p kept q) :
    ∃ done, Aliased done p q ∧ List.Perm (done ++ kept) pending := by
  induction pending generalizing kept p with
  | nil =>
    obtain ⟨rfl, rfl⟩ := runs_pure.1 h
    exact ⟨[], .done, .refl _⟩
  | cons pair rest ih =>
    obtain ⟨e, ref⟩ := pair
    simp only [aliasRound, runs_bind, runs_ite] at h
    obtain ⟨b, s, hb, h⟩ := h
    split at h
    · next ht =>
      obtain ⟨done, ha, hp⟩ := ih h
      exact ⟨(e, ref) :: done, .next (ht ▸ hb) ha, hp.cons _⟩
    · next hf =>
      obtain ⟨-, rfl⟩ | ⟨_, _, _, _, ht, -⟩ := registerAlias_runs hb
      · simp only [runs_pure] at h
        obtain ⟨kept', _, hk, rfl, rfl⟩ := h
        obtain ⟨done, ha, hp⟩ := ih hk
        exact ⟨done, ha, List.perm_middle.trans (hp.cons _)⟩
      · exact absurd ht hf

/-- In the end every alias was registered. -/
theorem registerAliases_runs {rounds : Nat} {pending : List (Entry × Ref)} {u : Unit}
    (h : Runs (registerAliases rounds pending) p u q) :
    ∃ order, Aliased order p q ∧ List.Perm order pending := by
  induction rounds generalizing pending p with
  | zero =>
    cases pending with
    | nil =>
      obtain ⟨-, rfl⟩ := runs_pure.1 h
      exact ⟨[], .done, .refl _⟩
    | cons pair rest => exact (runs_fail.1 h).elim
  | succ rounds ih =>
    cases pending with
    | nil =>
      obtain ⟨-, rfl⟩ := runs_pure.1 h
      exact ⟨[], .done, .refl _⟩
    | cons pair rest =>
      simp only [registerAliases, runs_bind] at h
      obtain ⟨kept, s, hk, h⟩ := h
      obtain ⟨done, hd, hp⟩ := aliasRound_runs hk
      split at h
      · obtain ⟨-, rfl⟩ := runs_pure.1 h
        exact ⟨done, hd, by simpa using hp⟩
      · rw [runs_ite] at h
        split at h
        · exact (runs_fail.1 h).elim
        · obtain ⟨order, ho, hq⟩ := ih h
          exact ⟨done ++ order, hd.append ho, (hq.append_left _).trans hp⟩

/-- Components have their names reserved, are resolved, are registered when they have models of
their own, and are registered as aliases otherwise. -/
theorem collect_runs {u : Unit} (h : Runs (collect document self scope) p u q) :
    ∃ resolved s t order,
      Runs (resolveEach self scope (listed document))
        { p with registry := (listed document).foldl reserved p.registry } resolved s ∧
      Runs (resolved.forM register) s () t ∧ Aliased order t q ∧
      List.Perm order (aliases resolved) := by
  simp only [collect, runs_bind] at h
  obtain ⟨es, _, hd, _, _, hr, resolved, s, he, _, t, hf, ha⟩ := h
  obtain ⟨rfl, rfl⟩ := declared_runs hd
  obtain rfl := reserve_forM_runs hr
  obtain ⟨order, ho, hp⟩ := registerAliases_runs ha
  exact ⟨resolved, s, t, order, he, hf, ho, hp⟩

end Component

end ApiGraph
