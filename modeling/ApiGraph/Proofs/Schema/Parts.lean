import ApiGraph.Proofs.Links
import ApiGraph.Resolve.Node

/-! The positions of a schema at which something is resolved, and the tree of what was obtained
there. A tree tells what its root depends on and where the names of its types come from. -/

namespace ApiGraph

namespace Schema

/-- Where something stands in a schema. -/
inductive Place where
  | items
  | values
  | property (name : String)
  | branch (key : String)

/-- The entries of a member of a node. -/
def entriesAt (node : Json) (key : String) : List (String × Json) :=
  match node.get key with
  | .obj entries => entries
  | _ => []

/-- The items of a member of a node. -/
def itemsAt (node : Json) (key : String) : List Json :=
  match node.get key with
  | .arr items => items
  | _ => []

/-- What is resolved for a property whose type is not told by the property itself. -/
def propertyTarget (v : Json) : Option Json :=
  if v.has "$ref" then some v
  else if (declaredType v).1 = some "array" then
    if isPrimitive (v.get "items") then none else (v.get "items").nonNull
  else if (declaredType v).1 = some "object" ∨ (declaredType v).1 = none then some v
  else none

/-- A property is resolved itself, or its items are, when its type does not say what it is. -/
theorem propertyTarget_of_wanted {v target : Json} (plain : v.has "$ref" = false)
    (wanted : ((declaredType v).1 = some "array" ∧ isPrimitive (v.get "items") = false ∧
        (v.get "items").nonNull = some target) ∨
      ((declaredType v).1 ≠ some "array" ∧
        ((declaredType v).1 = some "object" ∨ (declaredType v).1 = none) ∧ target = v)) :
    propertyTarget v = some target := by
  obtain ⟨array, prim, items⟩ | ⟨array, object, rfl⟩ := wanted
  · simp [propertyTarget, plain, array, prim, items]
  · simp [propertyTarget, plain, array, object]

/-- The type that a property tells of itself: its own one, or that of the items of an array. -/
def propertyType (v : Json) : Option String :=
  if (declaredType v).1 = some "array" then (declaredType (v.get "items")).1 else (declaredType v).1

/-- The position of the other values of a map. -/
def valuePositions (node : Json) : List (Place × Json) :=
  match node.get "additionalProperties" with
  | .obj entries => [(.values, .obj entries)]
  | _ => []

theorem valuePositions_of_object {node : Json}
    (object : (node.get "additionalProperties").isObject = true) :
    valuePositions node = [(.values, node.get "additionalProperties")] := by
  unfold valuePositions
  cases hv : node.get "additionalProperties" with
  | obj entries => rfl
  | _ => rw [hv] at object; cases object

/-- The positions of properties. -/
def fieldPositions (entries : List (String × Json)) : List (Place × Json) :=
  entries.flatMap fun e => ((propertyTarget e.2).map (Place.property e.1, ·)).toList

/-- The positions of the branches of a combination. -/
def branchPositions (key : String) (branches : List Json) : List (Place × Json) :=
  branches.map (.branch key, ·)

/-- The positions of a schema, in the order in which they are resolved. -/
def positions (node : Json) : List (Place × Json) :=
  if (declaredType node).1 = some "array" then [(.items, node.get "items")]
  else valuePositions node ++ fieldPositions (entriesAt node "properties") ++
    combinatorKeys.flatMap fun key => branchPositions key (itemsAt node key)

/-- A node stands below a schema, with nothing but schemas between them. -/
inductive Beneath (node : Json) : Json → Prop
  | here {place : Place} {v : Json} (holds : (place, v) ∈ positions node) : Beneath node v
  | deeper {place : Place} {v w : Json} (inside : Beneath node v) (schema : formOf v none = .schema)
    (holds : (place, w) ∈ positions v) : Beneath node w

end Schema

open Schema

/-- Whether a model has a type without parts, so that an array of such items takes it over. -/
def Link.isPlain : Link Model → Bool
  | .ref _ => false
  | .model m => isPrimitiveType m.type

/-- Whether the owner has the type at a position by the name of what stands there. -/
def Link.lends (link : Link Model) : Place → Bool
  | .items => !link.isPlain
  | .branch _ => false
  | _ => true

/-- Whether what stands at a position is itself a dependency of the owner. -/
def Link.listed (link : Link Model) : Place → Bool
  | .items => !link.isPlain
  | .branch _ => match link with
    | .ref _ => true
    | .model _ => false
  | _ => true

/-- What was obtained at some positions one after the other: a link each, and what was obtained
below it. -/
inductive Parts where
  | nil
  | cons (place : Place) (link : Link Model) (below rest : Parts)

namespace Parts

/-- One position. -/
def one (place : Place) (link : Link Model) (below : Parts) : Parts := .cons place link below .nil

/-- Some positions, then others. -/
def append : Parts → Parts → Parts
  | .nil, others => others
  | .cons place link below rest, others => .cons place link below (rest.append others)

/-- What stands at the positions themselves. -/
def here : Parts → List (Place × Link Model × Parts)
  | .nil => []
  | .cons place link below rest => (place, link, below) :: rest.here

/-- What stands at the branches. -/
def branches : Parts → List (Link Model)
  | .nil => []
  | .cons (.branch _) link _ rest => link :: rest.branches
  | .cons _ _ _ rest => rest.branches

/-- What the owner depends on because of the positions, each after what is below it. -/
def entries : Parts → List (Link Model)
  | .nil => []
  | .cons place link below rest =>
    below.entries ++ (if link.listed place then [link] else []) ++ rest.entries

/-- The handles at any depth. -/
def handles : Parts → List Ref
  | .nil => []
  | .cons _ (.ref r) below rest => below.handles ++ r :: rest.handles
  | .cons _ (.model _) below rest => below.handles ++ rest.handles

/-- The models at any depth, each with what was obtained below it. -/
def models : Parts → List (Model × Parts)
  | .nil => []
  | .cons _ (.ref _) below rest => below.models ++ rest.models
  | .cons _ (.model m) below rest => (m, below) :: below.models ++ rest.models

end Parts

/-- The handles among some links. -/
def Link.handles (links : List (Link Model)) : List Ref :=
  links.filterMap fun link => match link with
    | .ref r => some r
    | .model _ => none

/-- A model shows the name of a type at a position: of a field, of its items or of its other
values. -/
inductive Model.Shows (m : Model) : Place → String → Prop
  | field {f : Field} {type : String} (holds : f ∈ m.fields) (shown : f.type = some type) :
    Shows m (.property f.name) type
  | items {type : String} (array : m.array = some true) (shown : m.type = some type) :
    Shows m .items type
  | values {type : String}
    (shown : m.extras.lookup "additionalProperties" = some (.str type)) : Shows m .values type

/-- A schema itself tells the type at a position: of a property that is not resolved, or of
primitive items, which may be those of items. -/
inductive Schema.Declares : Json → Place → String → Prop
  | property {node v : Json} {name type : String} (holds : (name, v) ∈ entriesAt node "properties")
    (plain : propertyTarget v = none) (declared : propertyType v = some type) :
    Declares node (.property name) type
  | items {node : Json} {type : String} (primitive : isPrimitiveType (some type) = true)
    (declared : (declaredType (node.get "items")).1 = some type) : Declares node .items type
  | nested {node : Json} {type : String}
    (array : (declaredType (node.get "items")).1 = some "array")
    (declares : Declares (node.get "items") .items type) : Declares node .items type

/-- The type at a position is that of a handle or an embedded model: of what stands there, or of
what primitive items have it from. -/
inductive Parts.Lent : Parts → Place → Link Model → Prop
  | here {parts below : Parts} {place : Place} {link : Link Model}
    (holds : (place, link, below) ∈ parts.here) (lends : link.lends place = true) :
    Lent parts place link
  | nested {parts below : Parts} {m : Model} {link : Link Model}
    (holds : (.items, .model m, below) ∈ parts.here) (primitive : isPrimitiveType m.type = true)
    (lent : Lent below .items link) : Lent parts .items link

/-- What was obtained at its positions tells the branches of a model and the names of types that
its schema does not tell. -/
structure Model.Told (m : Model) (parts : Parts) : Prop where
  branches : m.branches = parts.branches
  typed : ∀ {type : String}, m.type = some type → (declaredType m.source).1 = some type ∨
    (m.array = some true ∧ (declaredType m.source).1 = some "array")
  shown : ∀ {place : Place} {type : String}, m.Shows place type →
    Schema.Declares m.source place type ∨ ∃ link, parts.Lent place link ∧ link.name = type
  lent : ∀ {place : Place} {link : Link Model}, parts.Lent place link → m.Shows place link.name

variable {parts others below : Parts} {place : Place} {link : Link Model} {m : Model}

theorem Link.listed_of_lends (h : link.lends place = true) : link.listed place = true := by
  cases place <;> first | exact h | cases h

@[simp] theorem Link.handles_append (links more : List (Link Model)) :
    handles (links ++ more) = handles links ++ handles more := List.filterMap_append

namespace Parts

section Append

@[simp] theorem here_append : (parts.append others).here = parts.here ++ others.here := by
  induction parts with
  | nil => rfl
  | cons _ _ _ rest _ ih => exact congrArg (_ :: ·) ih

@[simp] theorem entries_append :
    (parts.append others).entries = parts.entries ++ others.entries := by
  induction parts with
  | nil => rfl
  | cons _ _ _ rest _ ih => simp only [append, entries, ih, List.append_assoc]

@[simp] theorem branches_append :
    (parts.append others).branches = parts.branches ++ others.branches := by
  induction parts with
  | nil => rfl
  | cons place _ _ rest _ ih =>
    cases place <;> simp only [append, branches, ih, List.cons_append]

end Append

/-- The models below a model are among all models. -/
theorem models_trans {k : Model} {deeper : Parts} (hm : (m, below) ∈ parts.models)
    (hk : (k, deeper) ∈ below.models) : (k, deeper) ∈ parts.models := by
  induction parts with
  | nil => cases hm
  | cons place link inner rest ih₁ ih₂ =>
    cases link with
    | ref _ =>
      rw [models, List.mem_append] at hm ⊢
      exact hm.imp ih₁ ih₂
    | model _ =>
      rw [models, List.cons_append, List.mem_cons, List.mem_append] at hm ⊢
      obtain hm | hm | hm := hm
      · obtain ⟨rfl, rfl⟩ := Prod.mk.inj hm
        exact Or.inr (Or.inl hk)
      · exact Or.inr (Or.inl (ih₁ hm))
      · exact Or.inr (Or.inr (ih₂ hm))

theorem mem_models (h : (place, .model m, below) ∈ parts.here) : (m, below) ∈ parts.models := by
  induction parts with
  | nil => cases h
  | cons _ link inner rest _ ih =>
    rw [here, List.mem_cons] at h
    obtain h | h := h
    · obtain ⟨-, rfl, rfl⟩ : _ ∧ _ ∧ _ := by simpa using h
      exact List.mem_append_left _ List.mem_cons_self
    · cases link <;> exact List.mem_append_right _ (ih h)

/-- A branch stands at a position. -/
theorem mem_here_of_branches (h : link ∈ parts.branches) :
    ∃ key below, (Place.branch key, link, below) ∈ parts.here := by
  induction parts with
  | nil => cases h
  | cons place k inner rest _ ih =>
    have later (h : link ∈ rest.branches) :
        ∃ key below, (Place.branch key, link, below) ∈ (cons place k inner rest).here := by
      obtain ⟨key, below, hb⟩ := ih h
      exact ⟨key, below, List.mem_cons_of_mem _ hb⟩
    cases place with
    | branch key =>
      obtain rfl | h := List.mem_cons.1 h
      · exact ⟨key, inner, List.mem_cons_self⟩
      · exact later h
    | _ => exact later h

/-- What is a dependency of its owner is one of all owners further up. -/
theorem entries_subset (h : (m, below) ∈ parts.models) : below.entries ⊆ parts.entries := by
  induction parts with
  | nil => cases h
  | cons place link inner rest ih₁ ih₂ =>
    have hi : inner.entries ⊆ (cons place link inner rest).entries :=
      fun _ hl => List.mem_append_left _ (List.mem_append_left _ hl)
    have hr : rest.entries ⊆ (cons place link inner rest).entries :=
      fun _ hl => List.mem_append_right _ hl
    cases link with
    | ref _ =>
      obtain h | h := List.mem_append.1 h
      · exact List.Subset.trans (ih₁ h) hi
      · exact List.Subset.trans (ih₂ h) hr
    | model _ =>
      rw [models, List.cons_append, List.mem_cons, List.mem_append] at h
      obtain h | h | h := h
      · obtain ⟨rfl, rfl⟩ := Prod.mk.inj h
        exact hi
      · exact List.Subset.trans (ih₁ h) hi
      · exact List.Subset.trans (ih₂ h) hr

theorem mem_entries (h : (place, link, below) ∈ parts.here) (hl : link.listed place = true) :
    link ∈ parts.entries := by
  induction parts with
  | nil => cases h
  | cons _ _ _ rest _ ih =>
    rw [here, List.mem_cons] at h
    obtain h | h := h
    · obtain ⟨rfl, rfl, rfl⟩ : _ ∧ _ ∧ _ := by simpa using h
      rw [entries, if_pos hl]
      simp
    · exact List.mem_append_right _ (ih h)

/-- What lends its name is a dependency. -/
theorem Lent.mem_entries (h : parts.Lent place link) : link ∈ parts.entries := by
  induction h with
  | here holds lends => exact Parts.mem_entries holds (Link.listed_of_lends lends)
  | nested holds _ _ ih => exact entries_subset (mem_models holds) ih

/-- The handles among the dependencies are those of all positions, one for each. -/
theorem handles_entries : Link.handles parts.entries = parts.handles := by
  induction parts with
  | nil => rfl
  | cons place link below rest ih₁ ih₂ =>
    rw [entries, Link.handles_append, Link.handles_append, ih₁, ih₂]
    cases link with
    | ref r =>
      have listed : (Link.ref r : Link Model).listed place = true := by cases place <;> rfl
      rw [if_pos listed, handles, List.append_assoc]
      rfl
    | model m =>
      have none : Link.handles (if (Link.model m).listed place then [.model m] else []) = [] := by
        split <;> rfl
      rw [none, List.append_nil, handles]

theorem split_append {α : Type} {as bs pre post : List α} {x : α}
    (h : as ++ bs = pre ++ x :: post) :
    (∃ more, as = pre ++ x :: more) ∨ ∃ front, pre = as ++ front ∧ bs = front ++ x :: post := by
  obtain ⟨front, hp, hb⟩ | ⟨more, ha, hm⟩ := List.append_eq_append_iff.1 h
  · exact Or.inr ⟨front, hp, hb⟩
  · cases more with
    | nil => exact Or.inr ⟨[], by simpa using ha.symm, by simpa using hm.symm⟩
    | cons y more =>
      obtain ⟨rfl, -⟩ := List.cons.inj hm
      exact Or.inl ⟨more, ha⟩

/-- Each model among the dependencies follows everything that it is the reason for. -/
theorem entries_below {pre post : List (Link Model)}
    (h : parts.entries = pre ++ .model m :: post) :
    ∃ below, (m, below) ∈ parts.models ∧ below.entries <:+ pre := by
  induction parts generalizing pre post with
  | nil => simp [entries] at h
  | cons place link inner rest ih₁ ih₂ =>
    have under {k : Model × Parts} (hk : k ∈ inner.models) :
        k ∈ (cons place link inner rest).models := by
      cases link with
      | ref _ => exact List.mem_append_left _ hk
      | model _ => exact List.mem_append_left _ (List.mem_cons_of_mem _ hk)
    have later {k : Model × Parts} (hk : k ∈ rest.models) :
        k ∈ (cons place link inner rest).models := by
      cases link <;> exact List.mem_append_right _ hk
    obtain ⟨_, first⟩ | ⟨front, rfl, last⟩ := split_append h
    · obtain ⟨_, first⟩ | ⟨front, rfl, self⟩ := split_append first
      · obtain ⟨below, hm, hb⟩ := ih₁ first
        exact ⟨below, under hm, hb⟩
      · -- The model is the one that stands here.
        split at self
        · obtain ⟨rfl, self⟩ | ⟨_, self⟩ := List.singleton_eq_append_iff.1 self
          · obtain ⟨rfl, -⟩ := List.cons.inj self
            exact ⟨inner, by simp [models], by simp⟩
          · cases self
        · simp at self
    · obtain ⟨below, hm, hb⟩ := ih₂ last
      exact ⟨below, later hm, hb.trans (List.suffix_append _ _)⟩

end Parts

end ApiGraph
