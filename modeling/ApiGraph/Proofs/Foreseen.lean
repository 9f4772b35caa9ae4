import ApiGraph.Proofs.Reception
import ApiGraph.Proofs.Resolve.Foreseen.Walk

/-! Failures of a description of an accepted version. If what is read of its nodes without a look at
it is what it is read as, the description is resolved, or it has a reference that leads nowhere or a
flaw in its structure, and nothing else goes wrong. -/

namespace ApiGraph

/-- A description of an accepted version: one that begins with `3.`, and no mark of the old
format. -/
structure Json.IsDescription (document : Json) : Prop where
  object : document.isObject = true
  current : document.get? "swagger" = none
  version : ∃ v, document.get "openapi" = .str v ∧ ['3', '.'].isPrefixOf v.toList = true

variable {τ : Type} {document : Json} {g : Graph τ} {source : Option String}

theorem Json.IsDescription.accepted (h : document.IsDescription) (source : Option String) :
    ∃ v, declaredVersion document source = .ok v := by
  obtain ⟨v, hv, accepted⟩ := h.version
  refine ⟨v, ?_⟩
  simp [declaredVersion, Declaration.accept, Json.declaration, h.object, h.current, hv, accepted,
    Json.nonNull, Json.text?, Json.shown]

/-- To listeners that take everything a walk is delivered, whatever it left. -/
theorem Graph.resolveAll_outcome (welcome : ∀ k, g.audience.Welcomes k) (document : Json) :
    (g.resolveAll document).outcome = ((walk document).run.run .start).1.map fun _ => () := by
  have steady : g.audience.Steady := by
    intro k l hl n message limit
    rw [welcome k l hl] at limit
    cases limit
  have delivered (notices : List Notice) :
      ∃ t, (Delivering.play notices).run.run g.stage = (.ok (), t) := by
    obtain ⟨succeeds, -⟩ := Delivering.Hinges.play steady notices g.stage rfl
    obtain ⟨t, ht, -⟩ := succeeds fun x _ => welcome x.1
    exact ⟨t, ht⟩
  unfold Graph.resolveAll
  generalize (walk document).run.run .start = w
  obtain ⟨walked, progress⟩ := w
  obtain ⟨t, ht⟩ := delivered progress.notices
  dsimp only
  rw [ht]
  cases walked <;> rfl

/-- A description whose nodes are fit and whose chains of references end is resolved, or fails as is
foreseen, unless a reference stands for a model that was resolved from nothing. -/
theorem parse_fails_as_foreseen (welcome : ∀ k, g.audience.Welcomes k)
    (description : document.IsDescription) (orderly : document.Orderly)
    (chains : document.ChainsEnd)
    (rooted : ((walk document).run.run .start).2.registry.Rooted) (source : Option String) :
    (g.parse document source).outcome = .ok () ∨
      ∃ f, (g.parse document source).outcome = .error f ∧ f.isForeseen = true := by
  obtain ⟨v, accepted⟩ := description.accepted source
  have whole := safe_walk orderly chains .start (Registry.Sourced.empty document)
  have outcome := Graph.resolveAll_outcome welcome document
  unfold Graph.parse
  rw [accepted]
  dsimp only
  rw [outcome]
  generalize (walk document).run.run .start = w at whole rooted
  obtain ⟨walked, progress⟩ := w
  cases walked with
  | ok arena => exact .inl rfl
  | error f => exact .inr ⟨f, rfl, whole.resolve_right (not_not.2 rooted)⟩

/-- A description of one operation, whose parameter is a component and whose response has some
content. -/
def listing (content : Json) : Json :=
  .obj [("openapi", .str "3.1.0"),
    ("components", .obj [
      ("schemas", .obj [("Item", .obj [("properties", .obj [
        ("name", .obj [("type", .str "string"), ("format", .str "word")])])])]),
      ("parameters", .obj [("Page", .obj [("name", .str "page"), ("in", .str "query"),
        ("schema", .obj [("type", .str "integer"), ("enum", .arr [.int 1, .int 2])])])])]),
    ("paths", .obj [("/items", .obj [
      ("parameters", .arr [.obj [("$ref", .str "#/components/parameters/Page")]]),
      ("get", .obj [("tags", .arr [.str "items"]), ("security", .arr [.obj [("key", .arr [])]]),
        ("responses", .obj [("200", .obj [("content", content)])])])])])]

/-- The change of an empty graph that reads the description. -/
def listing.change (content : Json) : Graph.Change Unit := Graph.empty.parse (listing content) none

theorem listing.isDescription (content : Json) : (listing content).IsDescription :=
  ⟨rfl, rfl, "3.1.0", rfl, rfl⟩

/-- The content of a response that carries what a reference leads to. -/
def listing.carrying (ref : String) : Json :=
  .obj [("application/json", .obj [("schema", .obj [("$ref", .str ref)])])]

/-- The description is resolved if the response carries a declared schema; if it carries one that is
not declared, the failure is foreseen. -/
theorem parse_fails_as_foreseen_listing :
    (listing.change (listing.carrying "#/components/schemas/Item")).outcome = .ok () ∧
      ∃ f, (listing.change (listing.carrying "#/components/schemas/Person")).outcome = .error f ∧
        f.isForeseen = true := by
  have outcome (ref : String)
      (sound : (listing (listing.carrying ref)).Orderly ∧ (listing (listing.carrying ref)).ChainsEnd)
      (rooted : ((walk (listing (listing.carrying ref))).run.run .start).2.registry.Rooted) :
      (listing.change (listing.carrying ref)).outcome = .ok () ∨
        ∃ f, (listing.change (listing.carrying ref)).outcome = .error f ∧ f.isForeseen = true :=
    parse_fails_as_foreseen (fun _ _ h => by cases h) (listing.isDescription _) sound.1 sound.2
      rooted none
  constructor
  · refine (outcome _ (Json.orderly_of_soundWithin 8 ?_ ?_ ?_) ?_).resolve_right ?_
    · decide +kernel
    · decide +kernel
    · decide +kernel
    · decide +kernel
    · rintro ⟨f, failed, -⟩
      have resolved : (listing.change
          (listing.carrying "#/components/schemas/Item")).outcome.isOk = true := by decide +kernel
      rw [failed] at resolved
      cases resolved
  · refine (outcome _ (Json.orderly_of_soundWithin 8 ?_ ?_ ?_) ?_).resolve_left ?_
    · decide +kernel
    · decide +kernel
    · decide +kernel
    · decide +kernel
    · intro resolved
      have failed : (listing.change
          (listing.carrying "#/components/schemas/Person")).outcome.isOk = false := by decide +kernel
      rw [resolved] at failed
      cases failed

/-- The misuse that an outcome ends with. -/
def misuse? : Except Failure Unit → Option Misuse
  | .error (.misuse m) => some m
  | _ => none

theorem eq_of_misuse? {outcome : Except Failure Unit} {m : Misuse} (h : misuse? outcome = some m) :
    outcome = .error (.misuse m) := by
  unfold misuse? at h
  split at h
  · rw [Option.some.inj h]
  · cases h

/-- Content that is no object is read as one, and that failure is not foreseen. -/
theorem content_not_read : (listing (.int 5)).IsDescription ∧
    (listing.change (.int 5)).outcome = .error (.misuse .noMember) := by
  refine ⟨listing.isDescription _, eq_of_misuse? ?_⟩
  decide +kernel

end ApiGraph
