import ApiGraph.Proofs.Resolve.Operation
import ApiGraph.Proofs.Schema.Parts

/-! Which fields of a resolved schema are required. Names that are required are passed on to
branches, and to branches of these, where they are added to what the branch requires itself; under
a property, the items of an array or the other values of a map they start anew. -/

namespace ApiGraph

open Resolving Schema

/-- The names that a node requires itself. -/
def Schema.requires (node : Json) : List String := (itemsAt node "required").filterMap Json.text?

/-- The nodes from a node down to one of its branches at some depth, both of them included. -/
def Json.passed? : Json → List (String × Nat) → Option (List Json)
  | node, [] => some [node]
  | node, (key, i) :: path =>
    ((itemsAt node key)[i]?).bind fun v => (v.passed? path).map (node :: ·)

/-- The branches of one combination. -/
def Model.combination (m : Model) (key : String) : List (Link Model) :=
  match key with
  | "allOf" => m.allOf.getD []
  | "anyOf" => m.anyOf.getD []
  | "oneOf" => m.oneOf.getD []
  | _ => []

/-- The model that is embedded as a branch at some depth. -/
def Model.embedded? : Model → List (String × Nat) → Option Model
  | m, [] => some m
  | m, (key, i) :: path =>
    match (m.combination key)[i]? with
    | some (.model b) => b.embedded? path
    | _ => none

/-- Fields of a model and of its branches at any depth are required if their names are inherited,
or required by one of the nodes on the way to the branch, and otherwise are not. -/
def Model.Heeds (m : Model) (inherited : List String) : Prop :=
  ∀ path k, m.embedded? path = some k → ∃ nodes, m.source.passed? path = some nodes ∧
    nodes.getLast? = some k.source ∧
    ∀ f ∈ k.fields, f.required = true ↔ f.name ∈ inherited ∨ ∃ v ∈ nodes, f.name ∈ requires v

/-- A node stands below another at a position that is no branch. -/
inductive Schema.Nested : Json → Json → Prop
  | here {node v : Json} {place : Place} (holds : (place, v) ∈ positions node)
    (apart : ∀ key, place ≠ .branch key) : Nested node v
  | deeper {node v w : Json} {place : Place} (holds : (place, v) ∈ positions node)
    (nested : Nested v w) : Nested node w

/-- The models among some links were made from nested nodes and inherit nothing. -/
def Schema.Apart (node : Json) (links : List (Link Model)) : Prop :=
  ∀ d, .model d ∈ links → Nested node d.source ∧ d.Heeds []

variable {document node v : Json} {depth : Nat} {self : Resolver} {scope : Scope} {site : Site}
  {p q : Progress} {name parent : String} {required inherited : List String} {m m' : Model}
  {out : Outcome} {f : Field} {fs : List Field} {needs more : List (Link Model)} {place : Place}

namespace Model

theorem combination_of_branches (h : m.branches = []) (key : String) : m.combination key = [] := by
  obtain ⟨all, any, one⟩ : m.allOf.getD [] = [] ∧ m.anyOf.getD [] = [] ∧ m.oneOf.getD [] = [] := by
    simpa [branches] using h
  unfold combination
  split <;> first | assumption | rfl

/-- A model heeds what it inherits if its own fields do and its branches heed that and what its
node requires. -/
theorem Heeds.of_branches
    (own : ∀ f ∈ m.fields, f.required = true ↔ f.name ∈ inherited ∨ f.name ∈ requires m.source)
    (branches : ∀ (key : String) (i : Nat) (b : Model), (m.combination key)[i]? = some (.model b) →
      (itemsAt m.source key)[i]? = some b.source ∧ b.Heeds (inherited ++ requires m.source)) :
    m.Heeds inherited := by
  intro path k hk
  cases path with
  | nil =>
    obtain rfl := Option.some.inj hk
    exact ⟨[m.source], rfl, rfl, by simpa using own⟩
  | cons step path =>
    obtain ⟨key, i⟩ := step
    unfold embedded? at hk
    split at hk
    · next b hb =>
      obtain ⟨source, heeds⟩ := branches key i b hb
      obtain ⟨nodes, passed, last, fields⟩ := heeds path k hk
      refine ⟨m.source :: nodes, ?_, ?_, fun f hf => ?_⟩
      · rw [Json.passed?, source, Option.bind_some, passed, Option.map_some]
      · rw [List.getLast?_cons, last]
        rfl
      · simp [fields f hf, or_assoc]
    · cases hk

theorem Heeds.of_lone (fields : m.fields = []) (branches : m.branches = []) : m.Heeds inherited :=
  .of_branches (by simp [fields]) fun key i b hb => by simp [combination_of_branches branches] at hb

/-- Only fields, branches and the node matter. -/
theorem Heeds.keep (heeds : m.Heeds inherited) (links : List (Link Model)) :
    Heeds { m with dependencies := links } inherited := by
  intro path k hk
  cases path with
  | nil =>
    obtain rfl := Option.some.inj hk
    exact heeds [] m rfl
  | cons step path => exact heeds (step :: path) k hk

end Model

namespace Schema

theorem Apart.nil : Apart node [] := fun _ h => by cases h

theorem Apart.append (here : Apart node needs) (later : Apart node more) : Apart node (needs ++ more) :=
  fun d h => (List.mem_append.1 h).elim (here d) (later d)

/-- What is below a position is below the node. -/
theorem Apart.deeper (below : Apart v needs) (holds : (place, v) ∈ positions node) :
    Apart node needs :=
  fun d h => ⟨.deeper holds (below d h).1, (below d h).2⟩

/-- A model of a node heeds what its site requires, and the models that are passed on are nested. -/
structure Observed (node : Json) (required : List String) (out : Outcome) : Prop where
  model : ∀ m, out.result = .model m → m.source = node ∧ m.Heeds required
  needs : Apart node out.needs

theorem Observed.ref {r : Ref} : Observed node required ⟨.ref r, []⟩ :=
  ⟨fun _ h => (by cases h), .nil⟩

/-- A model without fields and branches heeds whatever it inherits. -/
theorem Observed.lone (source : m.source = node) (fields : m.fields = []) (branches : m.branches = []) :
    Observed node required (.own m) :=
  ⟨fun _ hk => Link.model.inj hk ▸ ⟨source, .of_lone fields branches⟩, .nil⟩

/-- What stands at a position that is no branch is nested, with all that it passes on. -/
theorem Observed.nested (seen : Observed v [] out) (holds : (place, v) ∈ positions node)
    (apart : ∀ key, place ≠ .branch key) : Apart node (out.needs ++ [out.result]) := by
  refine (seen.needs.deeper holds).append fun d hd => ?_
  obtain ⟨source, heeds⟩ := seen.model d (List.mem_singleton.1 hd).symm
  exact ⟨source ▸ .here holds apart, heeds⟩

/-- A branch passes on what is nested in it. -/
theorem Observed.branch {key : String} (seen : Observed v required out)
    (holds : (.branch key, v) ∈ positions node) : Apart node (Outcome.passedOn out) := by
  unfold Outcome.passedOn
  split
  · next r hr =>
    refine (seen.needs.deeper holds).append fun d hd => ?_
    rw [hr] at hd
    cases List.mem_singleton.1 hd
  · exact seen.needs.deeper holds

/-- All runs of a resolver make models that heed what their site requires. -/
def Heedful (self : Resolver) : Prop :=
  ∀ ⦃site v p out q⦄, Runs (self site v) p out q → Observed v site.required out

theorem Heedful.member (hself : Heedful self)
    (h : Runs (resolveMember self scope name required v) p out q) : Observed v required out := by
  obtain ⟨_, run, -⟩ := resolveMember_runs h
  exact hself run

theorem requiredNames_eq {names : List String} (h : Runs (requiredNames node) p names q) :
    names = requires node := by
  unfold requiredNames at h
  split at h
  · next items hi =>
    rw [runs_ite] at h
    split at h
    · exact (runs_fail.1 h).elim
    · obtain ⟨rfl, -⟩ := runs_pure.1 h
      simp [requires, itemsAt, hi]
  · next other =>
    obtain ⟨rfl, -⟩ := runs_pure.1 h
    have none : itemsAt node "required" = [] := by
      unfold itemsAt
      split
      · next items hi => exact absurd hi (other items)
      · rfl
    rw [requires, none]
    rfl

theorem resolveField_required
    (h : Runs (resolveField document self scope parent required name v) p (f, needs) q) :
    f.required = required.contains f.name := by
  obtain ⟨-, start, g, hstart, hg, named, -, -, -, isRequired, -⟩ := resolveField_runs h
  obtain ⟨-, start_name, -⟩ := outlineField_runs hstart
  have same : g.name = start.name := by
    obtain ⟨_, _, _, rfl, _⟩ | ⟨_, _, _, _, _, rfl⟩ | ⟨_, _, _, _, _, rfl, _⟩ | ⟨_, _, _, _, _, _, rfl⟩ :=
      resolveFieldType_runs hg <;> rfl
  rw [isRequired, named, same, start_name]

/-- What a property needs stands at its position, if at any. -/
theorem Heedful.field (hself : Heedful self)
    (h : Runs (resolveField document self scope parent required name v) p (f, needs) q)
    (sub : ∀ x ∈ fieldPositions [(name, v)], x ∈ positions node) : Apart node needs := by
  obtain ⟨-, start, g, hstart, hg, -⟩ := resolveField_runs h
  obtain ⟨-, start_name, -, type, -⟩ := outlineField_runs hstart
  obtain ⟨r, _, _, _, rfl⟩ | ⟨_, _, rfl, _⟩ | ⟨target, out, plain, wanted, hm, -, rfl⟩ |
    ⟨_, _, rfl, _⟩ := resolveFieldType_runs hg
  · exact fun d hd => by cases List.mem_singleton.1 hd
  · exact .nil
  · rw [type] at wanted
    have holds : (.property name, target) ∈ positions node :=
      sub _ (by simp [fieldPositions, propertyTarget_of_wanted plain wanted])
    exact (hself.member hm).nested holds (by simp)
  · exact .nil

theorem Heedful.fields (hself : Heedful self) {entries : List (String × Json)}
    (h : Runs (resolveFields document self scope parent required entries) p (fs, needs) q)
    (sub : ∀ x ∈ fieldPositions entries, x ∈ positions node) :
    (∀ f ∈ fs, f.required = required.contains f.name) ∧ Apart node needs := by
  induction entries generalizing p fs needs with
  | nil =>
    simp only [resolveFields, runs_pure, Prod.mk.injEq] at h
    obtain ⟨⟨rfl, rfl⟩, rfl⟩ := h
    exact ⟨by simp, .nil⟩
  | cons entry rest ih =>
    obtain ⟨f, gs, hd, tl, s, hf, hr, rfl, rfl⟩ := resolveFields_runs h
    have here : Apart node hd := hself.field hf fun x hx => sub x (by
      rw [fieldPositions] at hx ⊢
      simp_all)
    obtain ⟨required, later⟩ := ih hr fun x hx => sub x (by
      rw [fieldPositions] at hx ⊢
      simp_all)
    exact ⟨List.forall_mem_cons.2 ⟨resolveField_required hf, required⟩, here.append later⟩

/-- Each branch is made from the item of its number and inherits what the combination passes on. -/
theorem Heedful.branches (hself : Heedful self) {key : String} {i : Nat} {items : List Json}
    {links : List (Link Model)}
    (h : Runs (resolveBranches self scope key name required i items) p (links, needs) q)
    (sub : ∀ x ∈ branchPositions key items, x ∈ positions node) :
    (∀ (j : Nat) (b : Model), links[j]? = some (.model b) →
      items[j]? = some b.source ∧ b.Heeds required) ∧ Apart node needs := by
  induction items generalizing p i links needs with
  | nil =>
    simp only [resolveBranches, runs_pure, Prod.mk.injEq] at h
    obtain ⟨⟨rfl, rfl⟩, rfl⟩ := h
    exact ⟨by simp, .nil⟩
  | cons branch rest ih =>
    obtain ⟨out, more, tl, s, hm, hr, rfl, rfl⟩ := resolveBranches_runs h
    have seen := hself.member hm
    obtain ⟨heeds, later⟩ := ih hr fun x hx => sub x (List.mem_cons_of_mem _ hx)
    refine ⟨fun j b hb => ?_, (seen.branch (sub _ List.mem_cons_self)).append later⟩
    cases j with
    | zero =>
      obtain ⟨rfl, told⟩ := seen.model b (Option.some.inj hb)
      exact ⟨rfl, told⟩
    | succ j => exact heeds j b hb

theorem Heedful.combinator (hself : Heedful self) {key label : String}
    {links : Option (List (Link Model))}
    (h : Runs (resolveCombinator self site required node m key label) p (links, needs) q)
    (hk : key ∈ combinatorKeys) (other : (declaredType node).1 ≠ some "array") :
    (∀ (j : Nat) (b : Model), (links.getD [])[j]? = some (.model b) →
      (itemsAt node key)[j]? = some b.source ∧ b.Heeds required) ∧ Apart node needs := by
  obtain ⟨rfl, rfl, rfl, -⟩ | ⟨items, branches, hi, hb, rfl⟩ := resolveCombinator_runs h
  · exact ⟨by simp, .nil⟩
  · have items_eq : itemsAt node key = items := by rw [itemsAt, hi]
    rw [items_eq]
    refine hself.branches hb fun x hx => ?_
    rw [positions, if_neg other]
    exact List.mem_append_right _ (List.mem_flatMap.2 ⟨key, hk, items_eq ▸ hx⟩)

theorem Heedful.properties (hself : Heedful self)
    (h : Runs (resolveProperties document self site required node m) p (fs, needs) q)
    (other : (declaredType node).1 ≠ some "array") :
    (∀ f ∈ fs, f.required = required.contains f.name) ∧ Apart node needs := by
  obtain ⟨rfl, rfl, rfl, -⟩ | ⟨entries, he, hf⟩ := resolveProperties_runs h
  · exact ⟨by simp, .nil⟩
  · have entries_eq : entriesAt node "properties" = entries := by rw [entriesAt, he]
    refine hself.fields hf fun x hx => ?_
    rw [positions, if_neg other, entries_eq]
    exact List.mem_append_left _ (List.mem_append_right _ hx)

/-- A composite schema adds the names that it requires itself, for its properties and for its
branches. -/
theorem Heedful.composite (hself : Heedful self)
    (h : Runs (resolveComposite document self site node m) p (m', needs) q)
    (other : (declaredType node).1 ≠ some "array") (source : m.source = node) :
    m'.source = node ∧ m'.dependencies = m.dependencies ∧ m'.Heeds site.required ∧
      Apart node needs := by
  obtain ⟨names, fs, allOf, anyOf, oneOf, n₀, n₁, n₂, n₃, p₁, p₂, p₃, hn, h₀, h₁, h₂, h₃, rfl,
    rfl⟩ := resolveComposite_runs h
  obtain rfl := requiredNames_eq hn
  obtain ⟨fields, apart⟩ := hself.properties h₀ other
  obtain ⟨all, apart₁⟩ := hself.combinator h₁ (by decide) other
  obtain ⟨any, apart₂⟩ := hself.combinator h₂ (by decide) other
  obtain ⟨one, apart₃⟩ := hself.combinator h₃ (by decide) other
  refine ⟨source, rfl, ?_, ((apart.append apart₁).append apart₂).append apart₃⟩
  refine .of_branches (fun f hf => ?_) fun key i b hb => ?_
  · rw [fields f hf, List.contains_iff_mem, List.mem_append, ← source]
  · unfold Model.combination at hb
    change (itemsAt m.source key)[i]? = some b.source ∧ b.Heeds (site.required ++ requires m.source)
    rw [source]
    split at hb
    · exact all i b hb
    · exact any i b hb
    · exact one i b hb
    · simp at hb

theorem Heedful.parts (hself : Heedful self)
    (h : Runs (resolveParts document self site node m) p (m', needs) q) (source : m.source = node)
    (fields : m.fields = []) (branches : m.branches = []) :
    m'.source = node ∧ m'.dependencies = m.dependencies ∧ m'.Heeds site.required ∧
      Apart node needs := by
  obtain ⟨declared, ha⟩ | ⟨other, mid, hd, s, hm, hc⟩ := resolveParts_runs h
  · obtain ⟨items, out, s, hi, hr, hc⟩ := resolveArray_runs ha
    obtain rfl := Json.eq_of_nonNull hi
    have holds : (.items, node.get "items") ∈ positions node := by simp [positions, declared]
    have seen := hself hr
    obtain ⟨item, -, -, -, rfl, rfl⟩ | ⟨-, -, rfl, rfl⟩ := hc
    · exact ⟨source, rfl, .of_lone fields branches, seen.needs.deeper holds⟩
    · exact ⟨source, rfl, .of_lone fields branches, seen.nested holds (by simp)⟩
  · obtain ⟨⟨extras, rfl⟩, values⟩ : (∃ extras, mid = { m with extras := extras }) ∧
        Apart node hd := by
      obtain ⟨out, hv, object, rfl, rfl⟩ | ⟨-, rfl, ⟨-, rfl⟩ | ⟨-, rfl⟩⟩ := resolveMapValues_runs hm
      · have holds : (.values, node.get "additionalProperties") ∈ positions node := by
          simp [positions, other, valuePositions_of_object object]
        exact ⟨⟨_, rfl⟩, (hself.member hv).nested holds (by simp)⟩
      · exact ⟨⟨_, rfl⟩, .nil⟩
      · exact ⟨⟨mid.extras, by cases mid; rfl⟩, .nil⟩
    obtain ⟨-, tl, hcomp, rfl⟩ | ⟨-, -, rfl, rfl⟩ := hc
    · obtain ⟨source, same, heeds, apart⟩ := hself.composite hcomp other source
      exact ⟨source, same, heeds, values.append apart⟩
    · obtain ⟨_, _, _, he, -⟩ := resolvePlain_eq node { m with extras := extras }
      rw [he]
      exact ⟨source, rfl, .of_lone fields branches, values⟩

/-- A schema's model, whether it keeps what it needs to itself or passes it on. -/
theorem Heedful.schema (hself : Heedful self)
    (h : Runs (Schema.resolve document self site node) p out q) : Observed node site.required out ∧
      ∀ m, out.result = .model m → Apart node m.dependencies := by
  obtain ⟨ref, -, -, -, rfl⟩ | ⟨start, k, needs, hs, hp, rfl⟩ := resolve_runs h
  · exact ⟨.ref, fun _ h => by cases h⟩
  obtain ⟨-, -, -, source, lone, fields, branches⟩ := outline_runs hs
  obtain ⟨source, same, heeds, apart⟩ := hself.parts hp source fields branches
  split
  · refine ⟨⟨fun m hm => ?_, .nil⟩, fun m hm => ?_⟩ <;> obtain rfl := Link.model.inj hm
    · exact ⟨source, heeds.keep needs⟩
    · exact apart
  · refine ⟨⟨fun m hm => ?_, apart⟩, fun m hm => ?_⟩ <;> obtain rfl := Link.model.inj hm
    · exact ⟨source, heeds⟩
    · rw [same, lone]
      exact .nil

theorem parameter_lone (h : Runs (Parameter.resolve self scope name node) p m q) :
    m.source = node ∧ m.fields = [] ∧ m.branches = [] := by
  obtain ⟨start, schema, mid, -, -, -, source, -, fields, branches, -, -, hv, hm⟩ :=
    Parameter.resolve_runs h
  have same : mid.source = start.source ∧ mid.fields = start.fields ∧
      mid.branches = start.branches := by
    obtain ⟨-, -, rfl⟩ | ⟨v, out, s, -, -, ⟨_, -, -, rfl⟩ | ⟨_, _, _, -, -, -, -, rfl⟩ |
      ⟨_, -, -, -, rfl⟩⟩ := Parameter.resolveValues_runs hv
    all_goals exact ⟨rfl, rfl, rfl⟩
  obtain ⟨hs, hf, hb⟩ := same
  obtain rfl | rfl := hm
  all_goals exact ⟨hs.trans source, hf.trans fields, hb.trans branches⟩

/-- What is no schema has no fields and passes on no models. -/
theorem Heedful.form (hself : Heedful self) : Heedful (resolveForm document self) := by
  intro site v p out q h
  obtain ⟨-, ⟨-, ref, -, rfl⟩ | ⟨-, m, hm, rfl⟩ | ⟨-, m, hm, rfl⟩ | ⟨-, kind, m, -, hm, rfl⟩ |
    ⟨-, hv⟩⟩ := resolveForm_runs h
  · exact .ref
  · obtain ⟨-, -, -, -, source, -, fields, branches⟩ := resolveSecurityScheme_runs hm
    exact .lone source fields branches
  · obtain ⟨source, fields, branches⟩ := parameter_lone hm
    exact .lone source fields branches
  · obtain ⟨_, -, -, -, source, -, fields, branches, -⟩ := Header.resolveHolder_runs hm
    exact .lone source fields branches
  · exact (hself.schema hv).1

theorem heedful_within (document : Json) (depth : Nat) : Heedful (resolveWithin document depth) := by
  induction depth with
  | zero => exact fun _ _ _ _ _ h => (runs_fail.1 h).elim
  | succ depth ih => exact ih.form

end Schema

/-- The fields of a resolved schema, and of the models that it embeds as branches at any depth, are
required if their names are inherited or required by one of the schemas on the way to the branch,
and otherwise are not. Models that stand for properties, items or other values, at any depth,
are told by the schemas from their own one on. -/
theorem required_inherited (h : Runs (resolveWithin document depth site node) p out q)
    (form : formOf node site.hint = .schema) (hm : out.result = .model m) :
    m.source = node ∧ m.Heeds site.required ∧
      ∀ d, .model d ∈ m.dependencies ++ out.needs → Nested node d.source ∧ d.Heeds [] := by
  cases depth with
  | zero => exact (runs_fail.1 h).elim
  | succ depth =>
    have hv : Runs (Schema.resolve document (resolveWithin document depth) site node) p out q :=
      resolveForm_schema h form
    obtain ⟨seen, own⟩ := (heedful_within document depth).schema hv
    obtain ⟨source, heeds⟩ := seen.model m hm
    exact ⟨source, heeds, (own m hm).append seen.needs⟩

/-- An order with a buyer as a property and with a branch. -/
def order : Json :=
  .obj [("required", .arr [.str "id"]),
    ("properties", .obj [("id", .obj [("type", .str "string")]),
      ("buyer", .obj [("type", .str "object"), ("required", .arr [.str "name"]),
        ("properties", .obj [("id", .obj [("type", .str "string")]),
          ("name", .obj [("type", .str "string")])])])]),
    ("allOf", .arr [.obj [("required", .arr [.str "note"]),
      ("properties", .obj [("id", .obj [("type", .str "string")]),
        ("note", .obj [("type", .str "string")]), ("seen", .obj [("type", .str "string")]),
        ("tag", .obj [("type", .str "string")])])]])]

/-- The names of the fields that are required. -/
def Model.requiredFields (m : Model) : List String := (m.fields.filter (·.required)).map (·.name)

/-- The required fields of a model, of its first branch and of what it depends on. -/
def order.outcome (x : Except Failure Outcome × Progress) :
    Option (List String × Option (List String) × List (List String)) :=
  match x with
  | (.ok ⟨.model m, _⟩, _) => some (m.requiredFields,
      (m.embedded? [("allOf", 0)]).map Model.requiredFields,
      m.dependencies.filterMap fun link => match link with
        | .ref _ => none
        | .model d => some d.requiredFields)
  | _ => none

/-- An identifier is required in the order and in its branch, and not in the buyer. -/
theorem required_inherited_order : ∃ out m q,
    Runs (resolveWithin order 3 { Site.ofOwner .root "Order" with required := ["seen"] } order)
      .start out q ∧
    out.result = .model m ∧ m.Heeds ["seen"] ∧ m.requiredFields = ["id"] ∧
    (m.embedded? [("allOf", 0)]).map Model.requiredFields = some ["id", "note", "seen"] ∧
    ∃ d, .model d ∈ m.dependencies ∧ d.Heeds [] ∧ d.requiredFields = ["name"] := by
  have fields : order.outcome ((resolveWithin order 3
      { Site.ofOwner .root "Order" with required := ["seen"] } order).run.run .start) =
      some (["id"], some ["id", "note", "seen"], [["name"]]) := by decide +kernel
  unfold order.outcome at fields
  split at fields
  · next m _ q hx =>
    obtain ⟨-, heeds, nested⟩ := required_inherited hx rfl rfl
    obtain ⟨own, branch, inner⟩ : _ ∧ _ ∧ _ := by
      simpa only [Option.some.injEq, Prod.mk.injEq] using fields
    obtain ⟨link, hl, hd⟩ := List.mem_filterMap.1 (inner ▸ List.mem_singleton.2 rfl)
    split at hd
    · cases hd
    · next d =>
      exact ⟨_, m, q, hx, rfl, heeds, own, branch, d, hl,
        (nested d (List.mem_append_left _ hl)).2, Option.some.inj hd⟩
  · cases fields

end ApiGraph
