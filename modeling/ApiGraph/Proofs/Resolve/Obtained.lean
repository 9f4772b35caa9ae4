import ApiGraph.Proofs.Json.Inside
import ApiGraph.Proofs.Schema.Keyword
import ApiGraph.Proofs.Schema.Parts
import ApiGraph.Proofs.Resolve.Traversal

/-! The tree of what a run obtained at the positions of a schema. Every resolution of a schema
leaves one, and what it passes on or keeps as dependencies are the entries of the tree. -/

namespace ApiGraph

open Resolving Schema

/-- The state after something was obtained at a position. Plain items do not take their name. -/
def Progress.settled (p : Progress) (link : Link Model) : Place → Progress
  | .items => if link.isPlain then p else p.claimed link
  | _ => p.claimed link

/-- What a node below a schema was resolved into by a run: a handle for a reference or for a schema
that is registered already, or a model of a security scheme or of a schema, whose own positions
were gone through by the same run. -/
inductive Obtained (document : Json) (space : KeySpace)
    (grown : List (Place × Json) → Progress → Progress → Prop) (below : Parts) (v : Json) :
    Link Model → Progress → Progress → Prop
  | reference {r : Ref} {p q : Progress} {scope : Scope} {depth : Nat} (isRef : v.has "$ref" = true)
    (leaf : below = .nil)
    (run : Runs (resolveReference document (resolveWithin document depth) scope v) p r q) :
    Obtained document space grown below v (.ref r) p q
  | known {r : Ref} {p : Progress} (form : formOf v none = .schema) (leaf : below = .nil)
    (phase : space = .structural) (found : p.registry.findStructural v = some r) :
    Obtained document space grown below v (.ref r) p p
  | scheme {m : Model} {p : Progress} {scope : Scope} {name : String}
    (form : formOf v none = .securityScheme) (leaf : below = .nil)
    (run : Runs (resolveSecurityScheme scope name v) p m p) :
    Obtained document space grown below v (.model m) p p
  | schema {m : Model} {p q : Progress} (form : formOf v none = .schema) (source : m.source = v)
    (empty : m.dependencies = []) (told : m.Told below) (run : grown (positions v) p q) :
    Obtained document space grown below v (.model m) p q

/-- A run obtained what stands at some positions, one after the other. -/
def Parts.Grown (document : Json) (space : KeySpace) :
    Parts → List (Place × Json) → Progress → Progress → Prop
  | .nil, nodes, p, q => nodes = [] ∧ q = p
  | .cons place link below rest, nodes, p, q => ∃ v more s, nodes = (place, v) :: more ∧
      Obtained document space (below.Grown document space) below v link p s ∧
      rest.Grown document space more (s.settled link place) q

variable {document node : Json} {space : KeySpace} {depth : Nat} {scope : Scope} {site : Site}
  {p q s : Progress} {name parent : String} {required : List String} {m m' : Model} {out : Outcome}
  {f : Field} {fs : List Field} {needs : List (Link Model)} {parts others below : Parts}
  {nodes more : List (Place × Json)} {place : Place} {link : Link Model} {v : Json}

namespace Parts

theorem Grown.append (first : parts.Grown document space nodes p s)
    (rest : others.Grown document space more s q) :
    (parts.append others).Grown document space (nodes ++ more) p q := by
  induction parts generalizing nodes p with
  | nil =>
    obtain ⟨rfl, rfl⟩ := first
    exact rest
  | cons place link below tail _ ih =>
    obtain ⟨v, left, t, rfl, obtained, later⟩ := first
    exact ⟨v, left ++ more, t, rfl, obtained, ih later⟩

theorem grown_one (place : Place)
    (h : Obtained document space (below.Grown document space) below v link p s) :
    (one place link below).Grown document space [(place, v)] p (s.settled link place) :=
  ⟨v, [], s, rfl, h, rfl, rfl⟩

@[simp] theorem entries_one :
    (one place link below).entries = below.entries ++ if link.listed place then [link] else [] := by
  simp [one, entries]

@[simp] theorem here_one : (one place link below).here = [(place, link, below)] := rfl

end Parts

/-- A node that can stand below a schema, with everything below it. -/
def Fine (v : Json) : Prop :=
  formOf v none ≠ .parameter ∧
    (formOf v none = .schema → ∀ w, Beneath v w → formOf w none ≠ .parameter)

theorem Schema.Beneath.trans {w : Json} (hv : Beneath node v) (schema : formOf v none = .schema)
    (hw : Beneath v w) : Beneath node w := by
  induction hw with
  | here holds => exact .deeper hv schema holds
  | deeper _ form holds ih => exact .deeper ih form holds

/-- Whether no parameter stands beneath a schema, up to some depth. -/
def parameterless : Nat → Json → Bool
  | 0, _ => false
  | n + 1, v => (positions v).all fun x =>
    formOf x.2 none ≠ .parameter && (formOf x.2 none ≠ .schema || parameterless n x.2)

theorem beneath_of_parameterless (n : Nat) (h : parameterless n node = true) :
    ∀ v, Beneath node v → formOf v none ≠ .parameter := by
  have step {n : Nat} {v w : Json} {place : Place} (h : parameterless n v = true)
      (holds : (place, w) ∈ positions v) : formOf w none ≠ .parameter ∧
        (formOf w none = .schema → ∃ n, parameterless n w = true) := by
    cases n with
    | zero => cases h
    | succ n =>
      have hw := List.all_eq_true.1 h _ holds
      simp only [Bool.and_eq_true, Bool.or_eq_true, decide_eq_true_eq] at hw
      exact ⟨hw.1, fun hf => ⟨n, hw.2.resolve_left (not_not.2 hf)⟩⟩
  have all (v : Json) (hv : Beneath node v) : formOf v none ≠ .parameter ∧
      (formOf v none = .schema → ∃ n, parameterless n v = true) := by
    induction hv with
    | here holds => exact step h holds
    | deeper _ schema holds ih =>
      obtain ⟨k, hk⟩ := ih.2 schema
      exact step hk holds
  exact fun v hv => (all v hv).1

theorem fine_of_position (anonymous : ∀ w, Beneath node w → formOf w none ≠ .parameter)
    (h : (place, v) ∈ positions node) : Fine v :=
  ⟨anonymous v (.here h), fun schema _ hw => anonymous _ ((Beneath.here h).trans schema hw)⟩

/-- A security scheme has the type that it declares and shows no other. -/
theorem told_scheme (h : Runs (resolveSecurityScheme scope name v) p m q) : m.Told .nil := by
  obtain ⟨_, description, -, rfl⟩ := resolveSecurityScheme_cases h
  refine ⟨rfl, fun {word} hw => Or.inl ?_, fun hs => ?_, fun hl => ?_⟩
  · have worded : (v.get "type").text? = some word := hw
    change (declaredType v).1 = some word
    unfold declaredType
    cases declared : v.get "type" with
    | str _ =>
      rw [declared] at worded
      exact worded
    | _ =>
      rw [declared] at worded
      cases worded
  · cases hs with
    | field holds _ => cases holds
    | items array _ => cases array
    | values shown => cases shown
  · cases hl with
    | here holds _ => cases holds
    | nested holds _ _ => cases holds

/-- A model that was obtained is told by what is below it and keeps no dependencies. -/
theorem Obtained.told {grown : List (Place × Json) → Progress → Progress → Prop}
    (h : Obtained document space grown below v (.model m) p q) :
    m.Told below ∧ m.source = v ∧ m.dependencies = [] := by
  cases h with
  | scheme form leaf run =>
    obtain ⟨-, -, -, -, hs, hd, -⟩ := resolveSecurityScheme_runs run
    exact ⟨leaf ▸ told_scheme run, hs, hd⟩
  | schema _ source empty told _ => exact ⟨told, source, empty⟩

/-- So are all models in a tree that was grown. -/
theorem Parts.Grown.told (h : parts.Grown document space nodes p q)
    (hm : (m, below) ∈ parts.models) : m.Told below ∧ m.dependencies = [] := by
  induction parts generalizing nodes p q with
  | nil => cases hm
  | cons place link inner rest ih₁ ih₂ =>
    obtain ⟨v, more, s, -, obtained, later⟩ := h
    have inside (hi : (m, below) ∈ inner.models) : m.Told below ∧ m.dependencies = [] := by
      cases obtained with
      | schema _ _ _ _ run => exact ih₁ run hi
      | _ =>
        subst inner
        cases hi
    cases link with
    | ref _ => exact (List.mem_append.1 hm).elim inside (ih₂ later)
    | model k =>
      rw [Parts.models, List.cons_append, List.mem_cons, List.mem_append] at hm
      obtain hm | hm | hm := hm
      · obtain ⟨rfl, rfl⟩ := Prod.mk.inj hm
        exact ⟨obtained.told.1, obtained.told.2.2⟩
      · exact inside hm
      · exact ih₂ later hm

/-- All runs of a resolver obtain what stands below a schema, and pass on what it depends on. -/
def Obtains (document : Json) (space : KeySpace) (self : Resolver) : Prop :=
  ∀ ⦃site v p out q⦄, Runs (self site v) p out q → site.scope.space = space →
    site.owner = false → site.hint = none → Fine v → ∃ below : Parts,
      Obtained document space (below.Grown document space) below v out.result p q ∧
      below.entries = out.needs

variable {self : Resolver}

theorem obtains_member (place : Place) (hself : Obtains document space self)
    (h : Runs (resolveMember self scope name required v) p out q) (hs : scope.space = space)
    (fine : Fine v) (claims : ∀ s : Progress, s.settled out.result place = s.claimed out.result) :
    ∃ below, (Parts.one place out.result below).Grown document space [(place, v)] p q ∧
      below.entries = out.needs := by
  obtain ⟨s, hr, rfl⟩ := resolveMember_runs h
  obtain ⟨below, obtained, he⟩ := hself hr hs rfl rfl fine
  exact ⟨below, claims s ▸ Parts.grown_one place obtained, he⟩

/-- What was obtained for some properties tells the types of their fields. -/
structure FieldsTold (entries : List (String × Json)) (fs : List Field) (parts : Parts) : Prop where
  branches : parts.branches = []
  shown : ∀ f ∈ fs, ∀ type, f.type = some type →
    (∃ v, (f.name, v) ∈ entries ∧ propertyTarget v = none ∧ propertyType v = some type) ∨
    ∃ link below, (.property f.name, link, below) ∈ parts.here ∧ link.name = type
  lent : ∀ x ∈ parts.here, ∃ f ∈ fs, x.1 = .property f.name ∧ f.type = some x.2.1.name

/-- The positions of a property: one or none. -/
theorem fieldPositions_cons (entry : String × Json) (rest : List (String × Json)) :
    fieldPositions (entry :: rest) = fieldPositions [entry] ++ fieldPositions rest := by
  simp [fieldPositions]

theorem fieldPositions_one (h : propertyTarget v = some node) :
    fieldPositions [(name, v)] = [(.property name, node)] := by
  simp [fieldPositions, h]

theorem FieldsTold.cons {entry : String × Json} {rest : List (String × Json)}
    (first : FieldsTold [entry] [f] parts) (later : FieldsTold rest fs others) :
    FieldsTold (entry :: rest) (f :: fs) (parts.append others) where
  branches := by rw [Parts.branches_append, first.branches, later.branches]; rfl
  shown g hg type ht := by
    rw [Parts.here_append]
    obtain rfl | hg := List.mem_cons.1 hg
    · obtain ⟨v, hv, told⟩ | ⟨link, below, hl, hn⟩ := first.shown g (by simp) type ht
      · exact Or.inl ⟨v, by simp only [List.mem_singleton] at hv; simp [hv], told⟩
      · exact Or.inr ⟨link, below, List.mem_append_left _ hl, hn⟩
    · obtain ⟨v, hv, told⟩ | ⟨link, below, hl, hn⟩ := later.shown g hg type ht
      · exact Or.inl ⟨v, List.mem_cons_of_mem _ hv, told⟩
      · exact Or.inr ⟨link, below, List.mem_append_right _ hl, hn⟩
  lent x hx := by
    rw [Parts.here_append] at hx
    obtain hx | hx := List.mem_append.1 hx
    · obtain ⟨g, hg, told⟩ := first.lent x hx
      exact ⟨g, by simp only [List.mem_singleton] at hg; simp [hg], told⟩
    · obtain ⟨g, hg, told⟩ := later.lent x hx
      exact ⟨g, List.mem_cons_of_mem _ hg, told⟩

/-- A property that is not resolved tells its type itself. -/
theorem FieldsTold.plain (target : propertyTarget v = none) (type : f.type = propertyType v)
    (hn : f.name = name) : FieldsTold [(name, v)] [f] .nil where
  branches := rfl
  shown g hg type' ht := by
    obtain rfl := List.mem_singleton.1 hg
    exact Or.inl ⟨v, by simp [hn], target, type ▸ ht⟩
  lent x hx := by cases hx

/-- A property that is resolved has the name of what was obtained as its type. -/
theorem FieldsTold.resolved (type : f.type = some link.name) (hn : f.name = name) :
    FieldsTold [(name, v)] [f] (.one (.property name) link below) where
  branches := rfl
  shown g hg type' ht := by
    obtain rfl := List.mem_singleton.1 hg
    exact Or.inr ⟨link, below, by simp [hn], by rw [type] at ht; exact Option.some.inj ht⟩
  lent x hx := by
    obtain rfl := List.mem_singleton.1 hx
    exact ⟨f, by simp, by rw [hn], type⟩

theorem obtains_field (hself : Obtains document space (resolveWithin document depth))
    (h : Runs (resolveField document (resolveWithin document depth) scope parent required name v) p
      (f, needs) q) (hs : scope.space = space) (fine : ∀ x ∈ fieldPositions [(name, v)], Fine x.2) :
    ∃ parts : Parts, parts.Grown document space (fieldPositions [(name, v)]) p q ∧
      parts.entries = needs ∧ FieldsTold [(name, v)] [f] parts := by
  obtain ⟨-, start, g, hstart, hg, hn, ht, -⟩ := resolveField_runs h
  obtain ⟨-, hsn, -, hst, -⟩ := outlineField_runs hstart
  obtain ⟨r, isRef, hr, rfl, rfl⟩ | ⟨plain, rfl, rfl, array, prim, rfl⟩ |
    ⟨node, out, plain, wanted, hm, rfl, rfl⟩ | ⟨plain, rfl, rfl, array, object, untyped, rfl⟩ :=
    resolveFieldType_runs hg
  · have target : propertyTarget v = some v := by rw [propertyTarget, if_pos isRef]
    rw [fieldPositions_one target]
    exact ⟨.one (.property name) (.ref r) .nil, Parts.grown_one _ (.reference isRef rfl hr),
      by simp [Parts.entries, Link.listed], .resolved ht (hn.trans hsn)⟩
  · have declared : (declaredType v).1 = some "array" := hst ▸ array
    have target : propertyTarget v = none := by simp [propertyTarget, plain, declared, prim]
    refine ⟨.nil, ⟨by simp [fieldPositions, target], rfl⟩, rfl, .plain target ?_ (hn.trans hsn)⟩
    rw [ht, propertyType, if_pos declared]
  · rw [hst] at wanted
    rw [fieldPositions_one (propertyTarget_of_wanted plain wanted)] at fine ⊢
    obtain ⟨below, grown, he⟩ :=
      obtains_member (.property name) hself hm hs (fine _ List.mem_cons_self) fun _ => rfl
    exact ⟨_, grown, by simp [he, Link.listed], .resolved ht (hn.trans hsn)⟩
  · rw [hst] at array object untyped
    have target : propertyTarget v = none := by simp [propertyTarget, plain, array, object, untyped]
    refine ⟨.nil, ⟨by simp [fieldPositions, target], rfl⟩, rfl, .plain target ?_ (hn.trans hsn)⟩
    rw [ht, hst, propertyType, if_neg array]

theorem obtains_fields (hself : Obtains document space (resolveWithin document depth))
    {entries : List (String × Json)}
    (h : Runs (resolveFields document (resolveWithin document depth) scope parent required entries)
      p (fs, needs) q) (hs : scope.space = space) (fine : ∀ x ∈ fieldPositions entries, Fine x.2) :
    ∃ parts : Parts, parts.Grown document space (fieldPositions entries) p q ∧
      parts.entries = needs ∧ FieldsTold entries fs parts := by
  induction entries generalizing p fs needs with
  | nil =>
    simp only [resolveFields, runs_pure, Prod.mk.injEq] at h
    obtain ⟨⟨rfl, rfl⟩, rfl⟩ := h
    exact ⟨.nil, ⟨rfl, rfl⟩, rfl, rfl, by simp, by simp [Parts.here]⟩
  | cons entry rest ih =>
    rw [fieldPositions_cons] at fine ⊢
    obtain ⟨f, gs, hd, tl, s, hf, hr, rfl, rfl⟩ := resolveFields_runs h
    obtain ⟨first, grown, rfl, told⟩ :=
      obtains_field hself hf hs fun x hx => fine x (List.mem_append_left _ hx)
    obtain ⟨later, grown', rfl, told'⟩ := ih hr fun x hx => fine x (List.mem_append_right _ hx)
    exact ⟨first.append later, grown.append grown', Parts.entries_append, told.cons told'⟩

theorem obtains_branches (hself : Obtains document space self) {key : String} {i : Nat}
    {branches : List Json} {links : List (Link Model)}
    (h : Runs (resolveBranches self scope key name required i branches) p (links, needs) q)
    (hs : scope.space = space) (fine : ∀ x ∈ branchPositions key branches, Fine x.2) :
    ∃ parts : Parts, parts.Grown document space (branchPositions key branches) p q ∧
      parts.entries = needs ∧ parts.branches = links ∧ ∀ x ∈ parts.here, x.1 = .branch key := by
  induction branches generalizing p i links needs with
  | nil =>
    simp only [resolveBranches, runs_pure, Prod.mk.injEq] at h
    obtain ⟨⟨rfl, rfl⟩, rfl⟩ := h
    exact ⟨.nil, ⟨rfl, rfl⟩, rfl, rfl, by simp [Parts.here]⟩
  | cons branch rest ih =>
    obtain ⟨out, more, tl, s, hm, hr, rfl, rfl⟩ := resolveBranches_runs h
    obtain ⟨below, grown, he⟩ :=
      obtains_member (.branch key) hself hm hs (fine _ List.mem_cons_self) fun _ => rfl
    obtain ⟨later, grown', rfl, rfl, hb⟩ := ih hr fun x hx => fine x (List.mem_cons_of_mem _ hx)
    refine ⟨(Parts.one (.branch key) out.result below).append later, grown.append grown', ?_, rfl,
      ?_⟩
    · rw [Parts.entries_append, Parts.entries_one, he, Outcome.passedOn]
      cases out.result <;> simp [Link.listed]
    · simpa using hb

/-- A model of a schema without properties, branches or a type for other values. -/
structure Model.Lone (m : Model) (node : Json) : Prop where
  source : m.source = node
  dependencies : m.dependencies = []
  fields : m.fields = []
  branches : m.branches = []
  extras : m.extras.lookup "additionalProperties" = none

theorem lone_of_outline (h : Runs (outline site node) p m q) :
    m.Lone node ∧ m.type = none ∧ m.array = none := by
  simp only [outline, runs_bind, runs_fit, runs_pure] at h
  obtain ⟨_, _, -, rfl, -⟩ := h
  exact ⟨⟨rfl, rfl, rfl, rfl, lookup_extras (by decide) _⟩, rfl, rfl⟩

/-- An array has the type of plain items from where the items have it. -/
theorem told_of_plain {item : Model} (lone : m.Lone node) (array : m.array = some true)
    (declared : (declaredType node).1 = some "array") (told : item.Told below)
    (source : item.source = node.get "items") (prim : isPrimitiveType item.type = true)
    (type : m.type = item.type) : m.Told (.one .items (.model item) below) where
  branches := lone.branches
  typed _ := Or.inr ⟨array, by rw [lone.source, declared]⟩
  shown {place word} h := by
    cases h with
    | field holds _ => rw [lone.fields] at holds; cases holds
    | values hv => rw [lone.extras] at hv; cases hv
    | items _ ht =>
      rw [lone.source]
      rw [type] at ht
      obtain hd | ⟨ha, hd⟩ := told.typed ht <;> rw [source] at hd
      · exact Or.inl (.items (ht ▸ prim) hd)
      · obtain hs | ⟨link, hl, hn⟩ := told.shown (.items ha ht)
        · exact Or.inl (.nested hd (source ▸ hs))
        · exact Or.inr ⟨link, .nested List.mem_cons_self prim hl, hn⟩
  lent {place link} h := by
    cases h with
    | here holds lends =>
      obtain ⟨rfl, rfl, -⟩ : _ ∧ _ ∧ _ := by simpa using holds
      simp [Link.lends, Link.isPlain, prim] at lends
    | nested holds _ deeper =>
      obtain ⟨rfl, rfl⟩ : _ ∧ _ := by simpa using holds
      cases told.lent deeper with
      | items _ ht => exact .items array (type.trans ht)

/-- The type that an array has from other items is their name. -/
theorem told_of_items (lone : m.Lone node) (array : m.array = some true)
    (declared : (declaredType node).1 = some "array") (plain : link.isPlain = false)
    (type : m.type = some link.name) : m.Told (.one .items link below) where
  branches := lone.branches
  typed _ := Or.inr ⟨array, by rw [lone.source, declared]⟩
  shown {place word} h := by
    cases h with
    | field holds _ => rw [lone.fields] at holds; cases holds
    | values hv => rw [lone.extras] at hv; cases hv
    | items _ ht =>
      refine Or.inr ⟨link, .here List.mem_cons_self (by simp [Link.lends, plain]), ?_⟩
      exact Option.some.inj (type.symm.trans ht)
  lent {place k} h := by
    cases h with
    | here holds _ =>
      obtain ⟨rfl, rfl, -⟩ : _ ∧ _ ∧ _ := by simpa using holds
      exact .items array type
    | nested holds prim _ =>
      obtain ⟨rfl, -⟩ : _ ∧ _ := by simpa using holds
      rw [Link.isPlain, prim] at plain
      cases plain

theorem obtains_array (hself : Obtains document space self)
    (h : Runs (resolveArray self site node m) p (m', needs) q) (hs : site.scope.space = space)
    (fine : Fine (node.get "items")) (declared : (declaredType node).1 = some "array")
    (lone : m.Lone node) :
    ∃ parts : Parts, parts.Grown document space [(.items, node.get "items")] p q ∧
      parts.entries = needs ∧ m'.Told parts ∧ m'.source = node ∧ m'.dependencies = [] := by
  obtain ⟨items, out, s, hi, hr, hc⟩ := resolveArray_runs h
  obtain rfl := Json.eq_of_nonNull hi
  obtain ⟨below, obtained, he⟩ := hself hr hs rfl rfl fine
  have grown := Parts.grown_one .items obtained
  obtain ⟨item, ho, prim, rfl, rfl, rfl⟩ | ⟨other, rfl, rfl, rfl⟩ := hc
  · rw [ho] at obtained grown
    obtain ⟨told, source, -⟩ := obtained.told
    have plain : (Link.model item).isPlain = true := prim
    rw [Progress.settled, if_pos plain] at grown
    refine ⟨_, grown, ?_, ?_, lone.source, lone.dependencies⟩
    · simp [Link.listed, plain, he]
    · exact told_of_plain ⟨lone.source, lone.dependencies, lone.fields, lone.branches, lone.extras⟩
        rfl declared told source prim rfl
  · have plain : out.result.isPlain = false := by
      cases ho : out.result with
      | ref _ => rfl
      | model item => exact other item ho
    rw [Progress.settled, if_neg (by simp [plain])] at grown
    refine ⟨_, grown, ?_, ?_, lone.source, lone.dependencies⟩
    · simp [Link.listed, plain, he]
    · exact told_of_items ⟨lone.source, lone.dependencies, lone.fields, lone.branches, lone.extras⟩
        rfl declared plain rfl

/-- What was obtained for the other values of a map tells their type. -/
structure ValuesTold (m : Model) (parts : Parts) : Prop where
  branches : parts.branches = []
  shown : ∀ type, m.extras.lookup "additionalProperties" = some (.str type) →
    ∃ link below, (.values, link, below) ∈ parts.here ∧ link.name = type
  lent : ∀ x ∈ parts.here, x.1 = .values ∧
    m.extras.lookup "additionalProperties" = some (.str x.2.1.name)

theorem obtains_values (hself : Obtains document space self)
    (h : Runs (resolveMapValues self site node m) p (m', needs) q) (hs : site.scope.space = space)
    (fine : ∀ x ∈ valuePositions node, Fine x.2)
    (extras : m.extras.lookup "additionalProperties" = none) :
    ∃ parts : Parts, parts.Grown document space (valuePositions node) p q ∧
      parts.entries = needs ∧ ValuesTold m' parts ∧
      m' = { m with extras := m'.extras } := by
  obtain ⟨out, hm, ho, rfl, rfl⟩ | ⟨rfl, rfl, hc⟩ := resolveMapValues_runs h
  · rw [valuePositions_of_object ho] at fine ⊢
    obtain ⟨below, grown, he⟩ :=
      obtains_member .values hself hm hs (fine _ List.mem_cons_self) fun _ => rfl
    refine ⟨_, grown, by simp [he, Link.listed], ⟨rfl, fun type ht => ?_, fun x hx => ?_⟩, rfl⟩
    · rw [Dict.lookup_put_self] at ht
      exact ⟨_, below, List.mem_cons_self, by simpa using ht⟩
    · obtain rfl := List.mem_singleton.1 hx
      exact ⟨rfl, Dict.lookup_put_self _ _ _⟩
  · have hv : valuePositions node = [] := by
      unfold valuePositions
      obtain ⟨hb, -⟩ | ⟨ho, -⟩ := hc
      · rw [hb]
      · split
        · next hv => rw [hv] at ho; cases ho
        · rfl
    rw [hv]
    refine ⟨.nil, ⟨rfl, rfl⟩, rfl, ⟨rfl, fun type ht => ?_, by simp [Parts.here]⟩, ?_⟩
    · obtain ⟨-, rfl⟩ | ⟨-, rfl⟩ := hc
      · rw [Dict.lookup_put_self] at ht
        cases ht
      · rw [extras] at ht
        cases ht
    · obtain ⟨-, rfl⟩ | ⟨-, rfl⟩ := hc
      · rfl
      · cases m'
        rfl

theorem obtains_combinator (hself : Obtains document space self) {key label : String}
    {links : Option (List (Link Model))}
    (h : Runs (resolveCombinator self site required node m key label) p (links, needs) q)
    (hs : site.scope.space = space)
    (fine : ∀ x ∈ branchPositions key (itemsAt node key), Fine x.2) :
    ∃ parts : Parts, parts.Grown document space (branchPositions key (itemsAt node key)) p q ∧
      parts.entries = needs ∧ parts.branches = links.getD [] ∧
      ∀ x ∈ parts.here, x.1 = .branch key := by
  obtain ⟨rfl, rfl, rfl, hk⟩ | ⟨items, branches, hk, hb, rfl⟩ := resolveCombinator_runs h
  · rw [itemsAt, hk]
    exact ⟨.nil, ⟨rfl, rfl⟩, rfl, rfl, by simp [Parts.here]⟩
  · rw [itemsAt, hk] at fine ⊢
    exact obtains_branches hself hb hs fine

theorem obtains_properties (hself : Obtains document space (resolveWithin document depth))
    (h : Runs (resolveProperties document (resolveWithin document depth) site required node m) p
      (fs, needs) q) (hs : site.scope.space = space)
    (fine : ∀ x ∈ fieldPositions (entriesAt node "properties"), Fine x.2) :
    ∃ parts : Parts,
      parts.Grown document space (fieldPositions (entriesAt node "properties")) p q ∧
      parts.entries = needs ∧ FieldsTold (entriesAt node "properties") fs parts := by
  obtain ⟨rfl, rfl, rfl, ht⟩ | ⟨entries, he, hf⟩ := resolveProperties_runs h
  · have none : entriesAt node "properties" = [] := by
      unfold entriesAt
      split
      · next hp =>
        rw [hp] at ht
        simpa [Json.truthy] using ht
      · rfl
    rw [none]
    exact ⟨.nil, ⟨rfl, rfl⟩, rfl, rfl, by simp, by simp [Parts.here]⟩
  · have all : entriesAt node "properties" = entries := by rw [entriesAt, he]
    rw [all] at fine ⊢
    exact obtains_fields hself hf hs fine

/-- A composite schema is told by its values, properties and branches. -/
theorem told_of_composite {values properties branches : Parts} (array : m.array = none)
    (type : ∀ {word : String}, m.type = some word → (declaredType m.source).1 = some word)
    (links : m.branches = branches.branches) (hv : ValuesTold m values)
    (hf : FieldsTold (entriesAt m.source "properties") m.fields properties)
    (hb : ∀ x ∈ branches.here, ∃ key, x.1 = .branch key) :
    m.Told (values.append (properties.append branches)) where
  branches := by simp [hv.branches, hf.branches, links]
  typed ht := Or.inl (type ht)
  shown {place word} h := by
    cases h with
    | items ha _ => rw [array] at ha; cases ha
    | values shown =>
      obtain ⟨link, below, hl, hn⟩ := hv.shown word shown
      have hl : (.values, link, below) ∈ (values.append (properties.append branches)).here := by
        rw [Parts.here_append]
        exact List.mem_append_left _ hl
      exact Or.inr ⟨link, .here hl rfl, hn⟩
    | @field f _ holds shown =>
      obtain ⟨v, he, plain, declared⟩ | ⟨link, below, hl, hn⟩ := hf.shown f holds word shown
      · exact Or.inl (.property he plain declared)
      · have hl : (.property f.name, link, below) ∈
            (values.append (properties.append branches)).here := by
          rw [Parts.here_append, Parts.here_append]
          exact List.mem_append_right _ (List.mem_append_left _ hl)
        exact Or.inr ⟨link, .here hl rfl, hn⟩
  lent {place link} h := by
    have origin {x : Place × Link Model × Parts}
        (hx : x ∈ (values.append (properties.append branches)).here) :
        (∃ key, x.1 = .branch key) ∨ m.Shows x.1 x.2.1.name ∧ x.1 ≠ .items := by
      simp only [Parts.here_append, List.mem_append] at hx
      obtain hx | hx | hx := hx
      · obtain ⟨hp, shown⟩ := hv.lent x hx
        rw [hp]
        exact Or.inr ⟨.values shown, nofun⟩
      · obtain ⟨f, holds, hp, shown⟩ := hf.lent x hx
        rw [hp]
        exact Or.inr ⟨.field holds shown, nofun⟩
      · exact Or.inl (hb x hx)
    cases h with
    | here holds lends =>
      obtain ⟨key, hk⟩ | ⟨shown, -⟩ := origin holds
      · obtain rfl : place = .branch key := hk
        cases lends
      · exact shown
    | nested holds _ _ =>
      obtain ⟨key, hk⟩ | ⟨-, other⟩ := origin holds
      · cases hk
      · exact absurd rfl other

/-- A schema without properties and combinations keeps only its type. -/
theorem positions_of_plain (declared : (declaredType node).1 ≠ some "array")
    (plain : isComposite node = false) :
    entriesAt node "properties" = [] ∧ positions node = valuePositions node := by
  rw [isComposite, Bool.or_eq_false_iff, List.any_eq_false] at plain
  obtain ⟨hp, hc⟩ := plain
  have none : entriesAt node "properties" = [] := by rw [entriesAt, Json.get_of_has hp]
  have branches :
      combinatorKeys.flatMap (fun key => branchPositions key (itemsAt node key)) = [] := by
    refine List.flatMap_eq_nil_iff.2 fun key hk => ?_
    rw [itemsAt, Json.get_of_has (by simpa using hc key hk)]
    rfl
  refine ⟨none, ?_⟩
  rw [positions, if_neg declared, none, branches, List.append_nil]
  exact List.append_nil _

theorem obtains_composite (hself : Obtains document space (resolveWithin document depth))
    (h : Runs (resolveComposite document (resolveWithin document depth) site node m) p
      (m', needs) q)
    (hs : site.scope.space = space)
    (fine : ∀ x ∈ fieldPositions (entriesAt node "properties"), Fine x.2)
    (fine' : ∀ key ∈ combinatorKeys, ∀ x ∈ branchPositions key (itemsAt node key), Fine x.2) :
    ∃ properties branches : Parts,
      (properties.append branches).Grown document space
        (fieldPositions (entriesAt node "properties") ++
          combinatorKeys.flatMap fun key => branchPositions key (itemsAt node key)) p q ∧
      properties.entries ++ branches.entries = needs ∧
      FieldsTold (entriesAt node "properties") m'.fields properties ∧
      m'.branches = branches.branches ∧ (∀ x ∈ branches.here, ∃ key, x.1 = .branch key) ∧
      ∃ fs allOf anyOf oneOf,
        m' = { m with fields := fs, allOf := allOf, anyOf := anyOf, oneOf := oneOf } := by
  obtain ⟨names, fs, allOf, anyOf, oneOf, n₀, n₁, n₂, n₃, p₁, p₂, p₃, -, h₀, h₁, h₂, h₃, rfl,
    rfl⟩ := resolveComposite_runs h
  obtain ⟨properties, grown, rfl, told⟩ := obtains_properties hself h₀ hs fine
  obtain ⟨all, grown₁, rfl, hb₁, hk₁⟩ := obtains_combinator hself h₁ hs (fine' _ (by decide))
  obtain ⟨any, grown₂, rfl, hb₂, hk₂⟩ := obtains_combinator hself h₂ hs (fine' _ (by decide))
  obtain ⟨one, grown₃, rfl, hb₃, hk₃⟩ := obtains_combinator hself h₃ hs (fine' _ (by decide))
  refine ⟨properties, all.append (any.append one), ?_, by simp, told, ?_, fun x hx => ?_,
    fs, allOf, anyOf, oneOf, rfl⟩
  · refine grown.append ?_
    simpa [combinatorKeys] using grown₁.append (grown₂.append grown₃)
  · simp [Model.branches, hb₁, hb₂, hb₃]
  · simp only [Parts.here_append, List.mem_append] at hx
    obtain hx | hx | hx := hx
    · exact ⟨_, hk₁ x hx⟩
    · exact ⟨_, hk₂ x hx⟩
    · exact ⟨_, hk₃ x hx⟩

theorem obtains_parts (hself : Obtains document space (resolveWithin document depth))
    (h : Runs (resolveParts document (resolveWithin document depth) site node m) p (m', needs) q)
    (hs : site.scope.space = space) (fine : ∀ x ∈ positions node, Fine x.2) (lone : m.Lone node)
    (type : m.type = none) (array : m.array = none) :
    ∃ parts : Parts, parts.Grown document space (positions node) p q ∧ parts.entries = needs ∧
      m'.Told parts ∧ m'.source = node ∧ m'.dependencies = [] := by
  obtain ⟨declared, ha⟩ | ⟨other, mid, hd, s, hm, hc⟩ := resolveParts_runs h
  · rw [positions, if_pos declared] at fine ⊢
    exact obtains_array hself ha hs (fine _ List.mem_cons_self) declared lone
  have hpos : positions node = _ := if_neg other
  obtain ⟨values, grown, rfl, hv, hmid⟩ := obtains_values hself hm hs
    (fun x hx => fine x (by rw [hpos]; simp [hx])) lone.extras
  generalize mid.extras = extras at hmid
  subst hmid
  obtain ⟨composite, tl, hcomp, rfl⟩ | ⟨plain, rfl, rfl, rfl⟩ := hc
  · obtain ⟨properties, branches, grown', rfl, hf, links, hb, fs, allOf, anyOf, oneOf, hm'⟩ :=
      obtains_composite hself hcomp hs (fun x hx => fine x (by rw [hpos]; simp [hx]))
        (fun key hk x hx => fine x (by
          rw [hpos]
          exact List.mem_append_right _ (List.mem_flatMap.2 ⟨key, hk, hx⟩)))
    subst hm'
    refine ⟨values.append (properties.append branches), ?_, by simp, ?_, lone.source,
      lone.dependencies⟩
    · rw [hpos, List.append_assoc]
      exact grown.append grown'
    · refine told_of_composite array (fun ht => ?_) links ⟨hv.branches, hv.shown, hv.lent⟩
        (lone.source ▸ hf) hb
      cases type.symm.trans ht
  · obtain ⟨none, hpos⟩ := positions_of_plain other plain
    obtain ⟨_, _, _, he, declared⟩ := resolvePlain_eq node { m with extras }
    rw [hpos, he]
    refine ⟨values.append (.append .nil .nil), ?_, ?_, ?_, lone.source, lone.dependencies⟩
    · have nothing : Parts.nil.Grown document space [] q q := ⟨rfl, rfl⟩
      simpa [Parts.append] using grown.append nothing
    · simp [Parts.append, Parts.entries]
    · refine told_of_composite array (fun ht => ?_) lone.branches ⟨hv.branches, hv.shown, hv.lent⟩
        ⟨rfl, fun f hf => ?_, by simp [Parts.here]⟩ (by simp [Parts.here])
      · rw [lone.source]
        exact declared type ht
      · rw [lone.fields] at hf
        cases hf

/-- A schema without an owner passes on what it depends on. -/
theorem obtains_form (hself : Obtains document space (resolveWithin document depth)) :
    Obtains document space (resolveForm document (resolveWithin document depth)) := by
  intro site v p out q h hs owner hint fine
  obtain ⟨-, ⟨form, r, hr, rfl⟩ | ⟨form, m, hm, rfl⟩ | ⟨form, -⟩ | ⟨hh, -⟩ | ⟨form, hv⟩⟩ :=
    resolveForm_runs h <;> rw [hint] at *
  · exact ⟨.nil, .reference (Schema.isRef_of_formOf form) rfl hr, rfl⟩
  · obtain ⟨rfl, -⟩ := resolveSecurityScheme_runs hm
    exact ⟨.nil, .scheme form rfl hm, rfl⟩
  · exact absurd form fine.1
  · simp at hh
  obtain ⟨r, phase, found, rfl, rfl⟩ | ⟨start, m, needs, hstart, hp, rfl⟩ := resolve_runs hv
  · exact ⟨.nil, .known form rfl (hs ▸ phase) found, rfl⟩
  · obtain ⟨lone, type, array⟩ := lone_of_outline hstart
    obtain ⟨parts, grown, rfl, told, source, empty⟩ := obtains_parts hself hp hs
      (fun x hx => fine_of_position (fine.2 form) hx) lone type array
    rw [owner]
    exact ⟨parts, .schema form source empty told grown, rfl⟩

theorem obtains_within (document : Json) (space : KeySpace) (depth : Nat) :
    Obtains document space (resolveWithin document depth) := by
  induction depth with
  | zero => exact fun _ _ _ _ _ h => (runs_fail.1 h).elim
  | succ depth ih => exact obtains_form ih

theorem Model.Told.keep (told : m.Told parts) (links : List (Link Model)) :
    Model.Told { m with dependencies := links } parts where
  branches := told.branches
  typed := told.typed
  shown h := told.shown <| by
    cases h with
    | field holds shown => exact .field holds shown
    | items array shown => exact .items array shown
    | values shown => exact .values shown
  lent h := by
    cases told.lent h with
    | field holds shown => exact .field holds shown
    | items array shown => exact .items array shown
    | values shown => exact .values shown

/-- A schema that keeps its dependencies. -/
theorem obtains_owner (hself : Obtains document space (resolveWithin document depth))
    (h : Runs (resolveForm document (resolveWithin document depth) site node) p out q)
    (hm : out.result = .model m) (hs : site.scope.space = space) (owner : site.owner = true)
    (form : formOf node site.hint = .schema)
    (anonymous : ∀ v, Beneath node v → formOf v none ≠ .parameter) :
    ∃ parts : Parts, parts.Grown document space (positions node) p q ∧ m.source = node ∧
      m.Told parts ∧ m.dependencies = parts.entries := by
  obtain ⟨r, phase, found, rfl, rfl⟩ | ⟨start, k, needs, hstart, hp, rfl⟩ :=
    resolve_runs (resolveForm_schema h form)
  · cases hm
  · obtain ⟨lone, type, array⟩ := lone_of_outline hstart
    obtain ⟨parts, grown, rfl, told, source, -⟩ :=
      obtains_parts hself hp hs (fun x hx => fine_of_position anonymous hx) lone type array
    rw [if_pos owner] at hm
    obtain rfl := Link.model.inj hm
    exact ⟨parts, grown, source, told.keep _, rfl⟩

end ApiGraph
