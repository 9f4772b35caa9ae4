import ApiGraph.Proofs.Resolve.Obtained

/-! What the dependencies of a resolved schema are: the entries of the tree of what was obtained at
its positions. -/

namespace ApiGraph

open Resolving Schema

variable {document node : Json} {space : KeySpace} {site : Site} {p q : Progress} {m : Model}
  {out : Outcome} {parts : Parts} {nodes : List (Place × Json)}

/-- Models among the dependencies of a tree are models of the tree. -/
theorem Parts.mem_models_of_entries (h : .model m ∈ parts.entries) :
    ∃ below, (m, below) ∈ parts.models := by
  obtain ⟨pre, post, he⟩ := List.append_of_mem h
  obtain ⟨below, hm, -⟩ := entries_below he
  exact ⟨below, hm⟩

/-- So are all models inside the dependencies and the branches, which keep no dependencies. -/
theorem Parts.Grown.inside (grown : parts.Grown document space nodes p q)
    {links : List (Link Model)}
    (sub : ∀ k, .model k ∈ links → ∃ below, (k, below) ∈ parts.models)
    (h : (Link.model m).Within links) :
    m.dependencies = [] ∧ ∃ below, (m, below) ∈ parts.models := by
  induction h with
  | here holds =>
    obtain ⟨below, hm⟩ := sub m holds
    exact ⟨(grown.told hm).2, below, hm⟩
  | @inside _ k holds _ ih =>
    obtain ⟨below, hk⟩ := sub k holds
    obtain ⟨told, empty⟩ := grown.told hk
    refine ih fun j hj => ?_
    rw [Model.inner, empty, told.branches, List.nil_append] at hj
    obtain ⟨key, deeper, hj⟩ := mem_here_of_branches hj
    exact ⟨deeper, models_trans hk (mem_models hj)⟩

/-- The dependencies of a resolved schema are the entries of the tree of what was obtained at its
positions. No model inside has dependencies of its own; the handles are those of the tree, one
for each occurrence; what has lent its name to a type anywhere in the tree is a dependency; and a
model comes after everything that it is the reason for. -/
theorem dependencies_gather (h : Runs (resolveNode document site node) p out q)
    (hm : out.result = .model m) (owner : site.owner = true)
    (form : formOf node site.hint = .schema)
    (anonymous : ∀ v, Beneath node v → formOf v none ≠ .parameter) :
    ∃ parts : Parts, parts.Grown document site.scope.space (positions node) p q ∧
      m.source = node ∧ m.dependencies = parts.entries ∧
      (∀ k, (Link.model k).Within m.inner →
        k.dependencies = [] ∧ ∃ below, (k, below) ∈ parts.models) ∧
      Link.handles m.dependencies = parts.handles ∧
      (∀ x ∈ (m, parts) :: parts.models, x.1.Told x.2 ∧
        ∀ place link, x.2.Lent place link → link ∈ m.dependencies) ∧
      ∀ pre k post, m.dependencies = pre ++ .model k :: post →
        ∃ below, (k, below) ∈ parts.models ∧ below.entries <:+ pre := by
  obtain ⟨depth, h⟩ := resolveNode_runs h
  obtain ⟨parts, grown, source, told, entries⟩ :=
    obtains_owner (obtains_within document _ depth) h hm rfl owner form anonymous
  refine ⟨parts, grown, source, entries, fun k hk => grown.inside (fun j hj => ?_) hk,
    entries ▸ Parts.handles_entries, fun x hx => ?_, fun pre k post he => ?_⟩
  · rw [Model.inner, entries, told.branches, List.mem_append] at hj
    obtain hj | hj := hj
    · exact Parts.mem_models_of_entries hj
    · obtain ⟨key, below, hj⟩ := Parts.mem_here_of_branches hj
      exact ⟨below, Parts.mem_models hj⟩
  · rw [entries]
    obtain rfl | hx := List.mem_cons.1 hx
    · exact ⟨told, fun _ _ lent => lent.mem_entries⟩
    · exact ⟨(grown.told hx).1, fun _ _ lent => Parts.entries_subset hx lent.mem_entries⟩
  · exact Parts.entries_below (entries ▸ he)

/-- A schema with a reference as a property and as a branch, and with a map of nested lists. -/
def catalog : Json :=
  .obj [("properties", .obj [("maker", .obj [("$ref", .str "https://e.com/maker")]),
      ("parts", .obj [("additionalProperties", .obj [("type", .str "array"),
        ("items", .obj [("type", .str "array"), ("items", .obj [("type", .str "string")])])])])]),
    ("allOf", .arr [.obj [("$ref", .str "https://e.com/base")]])]

/-- The names of what a model depends on that a node is resolved into. -/
def dependencyNames (x : Except Failure Outcome × Progress) : Option (List String) :=
  match x with
  | (.ok ⟨.model m, _⟩, _) => some (m.dependencies.map Link.name)
  | _ => none

/-- The catalog depends on both references and on the nested models, the map of lists last. -/
theorem dependencies_gather_catalog : ∃ out m q parts,
    Runs (resolveNode catalog (.ofOwner .root "Catalog") catalog) .start out q ∧
    out.result = .model m ∧
    m.dependencies.map Link.name =
      ["https://e.com/maker", "CatalogPartsExtras", "CatalogParts", "https://e.com/base"] ∧
    Parts.Grown catalog .named parts (positions catalog) .start q ∧
    m.dependencies = parts.entries ∧
    Link.handles m.dependencies = parts.handles ∧
    ∀ k, (Link.model k).Within m.inner → k.dependencies = [] := by
  have names : dependencyNames
      ((resolveNode catalog (.ofOwner .root "Catalog") catalog).run.run .start) =
      some ["https://e.com/maker", "CatalogPartsExtras", "CatalogParts", "https://e.com/base"] := by
    decide +kernel
  unfold dependencyNames at names
  split at names
  · next m _ q hx =>
    obtain ⟨parts, grown, -, entries, inside, handles, -, -⟩ := dependencies_gather hx rfl rfl
      (by decide) (beneath_of_parameterless 5 (by decide))
    exact ⟨_, m, q, parts, hx, rfl, Option.some.inj names, grown, entries, handles,
      fun k hk => (inside k hk).1⟩
  · cases names

end ApiGraph
