import ApiGraph.Proofs.Interruption
import ApiGraph.Proofs.Resolve.ReorderingWalk

/-! The order of keys matters only where objects are walked through. Documents that are the same but
for the order of other keys are accepted or refused in the same way, deliver the same to the same
listeners, and leave snapshots that are written alike. -/

namespace ApiGraph

open Resolving
open Json (Alike Aligned)

/-- Snapshots of entities and models that are the same but for the order of keys. -/
structure Snapshot.Kin (s t : Snapshot) : Prop where
  events : List.Forall₂ (Both Eq (List.Forall₂ Entity.Kin)) s.events t.events
  models : List.Forall₂ (Both Eq Model.Kin) s.models t.models

/-- Stages that differ only in the order of keys in what was recorded. -/
structure Stage.Kin {τ : Type} (s t : Stage τ) : Prop where
  audience : s.audience = t.audience
  snapshot : s.snapshot.Kin t.snapshot
  heard : s.heard = t.heard
  warnings : s.warnings = t.warnings

/-- Deliveries that end in the same way from stages that differ only in the order of keys, and leave
such stages behind. -/
def Delivering.Parallel {τ α : Type} (d d' : Delivering τ α) : Prop :=
  ∀ s t : Stage τ, s.Kin t → Both Eq Stage.Kin (d.run.run s) (d'.run.run t)

variable {τ : Type}

namespace Snapshot.Kin

variable {s t : Snapshot}

theorem record (h : s.Kin t) (category : Kind) {e e' : Entity} (he : e.Kin e') :
    (s.record category e).Kin (t.record category e') := by
  have found := rel_lookup h.events category
  have entities : List.Forall₂ Entity.Kin (s.get category) (t.get category) := by
    unfold get
    generalize s.events.lookup category = a at found
    generalize t.events.lookup category = b at found
    cases found with
    | none => exact .nil
    | some h => exact h
  exact ⟨rel_put h.events category (List.rel_append entities (.cons he .nil)), h.models⟩

/-- Snapshots are written alike. -/
theorem alike (h : s.Kin t) : Alike s.toJson t.toJson := by
  refine (Aligned.append ?_ (.entry (Aligned.obj ?_))).obj
  · unfold Aligned
    rw [List.forall₂_map_left_iff, List.forall₂_map_right_iff]
    refine h.events.imp fun _ _ h => ⟨congrArg Kind.word h.1, Entity.alike_map ?_⟩
    exact h.2.imp fun _ _ => Entity.Kin.alike
  · unfold Aligned
    rw [List.forall₂_map_left_iff, List.forall₂_map_right_iff]
    exact h.models.imp fun _ _ h => ⟨h.1, h.2.alike⟩

end Snapshot.Kin

namespace Delivering.Parallel

variable {α β : Type} {e e' : Entity}

theorem pure (a : α) : Delivering.Parallel (τ := τ) (Pure.pure a) (Pure.pure a) :=
  fun _ _ h => ⟨rfl, h⟩

theorem bind {d d' : Delivering τ α} {f f' : α → Delivering τ β} (h : Delivering.Parallel d d')
    (hf : ∀ a, Delivering.Parallel (f a) (f' a)) : Delivering.Parallel (d >>= f) (d' >>= f') := by
  intro s t hst
  obtain ⟨same, stages⟩ := h s t hst
  rw [run_bind, run_bind]
  generalize d.run.run s = x at same stages
  generalize d'.run.run t = y at same stages
  obtain ⟨x, s'⟩ := x
  obtain ⟨_, t'⟩ := y
  obtain rfl : x = _ := same
  cases x with
  | ok a => exact hf a s' t' stages
  | error f => exact ⟨rfl, stages⟩

theorem modify {f f' : Stage τ → Stage τ} (h : ∀ s t : Stage τ, s.Kin t → (f s).Kin (f' t)) :
    Delivering.Parallel (modify f) (modify f') := fun s t hst => ⟨rfl, h s t hst⟩

theorem forM {as : List α} {bs : List β} {f : α → Delivering τ Unit} {g : β → Delivering τ Unit}
    (h : List.Forall₂ (fun a b => Delivering.Parallel (f a) (g b)) as bs) :
    Delivering.Parallel (as.forM f) (bs.forM g) := by
  induction h with
  | nil => exact pure ()
  | cons first _ ih => exact first.bind fun _ => ih

/-- A listener counts an entity and notes its label. -/
theorem give (h : e.label = e'.label) (l : Listener τ) :
    Delivering.Parallel (Delivering.give e l) (Delivering.give e' l) := by
  have hear : Delivering.Parallel (hear l.tag e.label) (hear l.tag e'.label) := by
    rw [h]
    exact modify fun s t hst => { hst with heard := congrArg (· ++ [(l.tag, e'.label)]) hst.heard }
  unfold Delivering.give
  split
  · exact hear.bind fun _ => pure l
  · exact fun _ _ hst => ⟨rfl, hst⟩
  · exact hear.bind fun _ => pure _

theorem giveFrom (h : e.label = e'.label) (category : Kind) (done rest : List (Listener τ)) :
    Delivering.Parallel (Delivering.giveFrom category e done rest)
      (Delivering.giveFrom category e' done rest) := by
  induction rest generalizing done with
  | nil => exact pure ()
  | cons l rest ih =>
    refine (give h l).bind fun l => (modify fun s t hst => ?_).bind fun _ => ih _
    exact { hst with
      audience := congrArg (Dict.put · category (done ++ l :: rest)) hst.audience }

theorem emitUnder (h : e.Kin e') (category : Kind) :
    Delivering.Parallel (τ := τ) (Delivering.emitUnder e category)
      (Delivering.emitUnder e' category) := by
  refine (modify fun s t hst => ?_).bind fun _ s t hst => ?_
  · exact { hst with snapshot := hst.snapshot.record category h }
  have delivered := giveFrom h.label_eq category [] (s.audience.of category) s t hst
  change Both Eq Stage.Kin ((Delivering.giveFrom category e [] (s.audience.of category)).run.run s)
    ((Delivering.giveFrom category e' [] (t.audience.of category)).run.run t)
  rwa [← hst.audience]

theorem play {notices notices' : List Notice} (h : List.Forall₂ Notice.Kin notices notices') :
    Delivering.Parallel (τ := τ) (Delivering.play notices) (Delivering.play notices') := by
  refine forM (h.imp fun n n' hn => ?_)
  cases hn with
  | entity categories h => exact forM (List.forall₂_same.2 fun category _ => emitUnder h category)
  | warning text =>
    exact modify fun s t hst => { hst with warnings := congrArg (· ++ [text]) hst.warnings }

end Delivering.Parallel

/-- The version of a document shows in whatever order keys are written. -/
theorem matches_declaredVersion {d d' : Json} {walked : Bool} (h : Json.Kin walked d d')
    (source : Option String) :
    Matches Eq (declaredVersion d source) (declaredVersion d' source) := by
  have old := h.get? "swagger"
  have version := h.get "openapi"
  unfold declaredVersion Json.declaration
  rw [h.isObject_eq]
  split
  · dsimp only
    generalize d.get? "swagger" = a at old
    generalize d'.get? "swagger" = b at old
    cases old with
    | some _ => exact .error .legacy
    | none =>
      generalize d.get "openapi" = v at version
      generalize d'.get "openapi" = w at version
      cases version with
      | null => exact .fail _
      | str s => exact .refl _
      | _ => exact .error .version
  · exact .fail _

namespace Graph

/-- What is delivered of documents that are walked side by side. -/
theorem deliveries_kin {d d' : Json} {walked : Bool} (h : Json.Kin walked d d') :
    List.Forall₂ (Both Eq Entity.Kin) (Walk.deliveries d) (Walk.deliveries d') := by
  obtain ⟨-, states⟩ := parallel_walk h _ _ .start
  have entity {n n' : Notice} (h : n.Kin n') :
      Option.Rel (Both Eq Entity.Kin) n.entity? n'.entity? := by
    cases h with
    | entity categories h => exact .some ⟨rfl, h⟩
    | warning _ => exact .none
  have emitted := List.rel_filterMap (fun _ _ h => entity h) states.notices
  refine List.rel_flatMap emitted fun x y hxy => ?_
  rw [spread, spread, hxy.1, List.forall₂_map_left_iff, List.forall₂_map_right_iff]
  exact List.forall₂_same.2 fun category _ => ⟨rfl, hxy.2⟩

variable {g : Graph τ} {d d' : Json}

theorem resolveAll_kin {walked : Bool} (h : Json.Kin walked d d') :
    Matches Eq (g.resolveAll d).outcome (g.resolveAll d').outcome ∧
      (g.resolveAll d).heard = (g.resolveAll d').heard ∧
      (g.resolveAll d).warnings = (g.resolveAll d').warnings ∧
      Alike (g.resolveAll d).graph.snapshot.toJson (g.resolveAll d').graph.snapshot.toJson := by
  obtain ⟨outcomes, states⟩ := parallel_walk h _ _ .start
  have start : g.stage.Kin g.stage := ⟨rfl, ⟨.nil, .nil⟩, rfl, rfl⟩
  obtain ⟨same, stages⟩ := Delivering.Parallel.play states.notices g.stage g.stage start
  unfold resolveAll
  generalize (walk d).run.run .start = x at outcomes states same stages
  generalize (walk d').run.run .start = y at outcomes states same stages
  obtain ⟨result, q⟩ := x
  obtain ⟨result', q'⟩ := y
  dsimp only at outcomes states same stages ⊢
  generalize (Delivering.play q.notices).run.run g.stage = x at same stages
  generalize (Delivering.play q'.notices).run.run g.stage = y at same stages
  obtain ⟨played, s⟩ := x
  obtain ⟨_, t⟩ := y
  obtain rfl : played = _ := same
  cases played with
  | error f => exact ⟨.fail f, stages.heard, stages.warnings, .refl _⟩
  | ok _ =>
    cases outcomes with
    | error failures => exact ⟨.error failures, stages.heard, stages.warnings, .refl _⟩
    | ok _ =>
      refine ⟨.ok rfl, stages.heard, stages.warnings, Snapshot.Kin.alike ?_⟩
      exact ⟨stages.snapshot.events, states.registry.models⟩

end Graph

/-- Two documents whose names, places, types, tags and references have no objects inside, and which
are the same once the keys of all objects are sorted that are not walked through, are both accepted
or both refused, with failures of the same class. They deliver the same, also before a failure, to
listeners that hear the same, and leave snapshots that are written alike. -/
theorem reordering_keeps_output (g : Graph τ) {d d' : Json} (literal : d.isLiteral = true)
    (same : d.arranged false = d'.arranged false) (source : Option String) :
    Matches Eq (g.parse d source).outcome (g.parse d' source).outcome ∧
      (g.parse d source).heard = (g.parse d' source).heard ∧
      (g.parse d source).warnings = (g.parse d' source).warnings ∧
      List.Forall₂ (Both Eq fun e e' => Alike e.toJson e'.toJson)
        (Graph.Call.parse d source : Graph.Call τ).deliveries
        (Graph.Call.parse d' source : Graph.Call τ).deliveries ∧
      Alike (g.parse d source).graph.snapshot.toJson (g.parse d' source).graph.snapshot.toJson := by
  have kin := Json.kin_of_arranged literal same
  have version := matches_declaredVersion kin source
  unfold Graph.parse Graph.Call.deliveries Graph.Call.walked?
  dsimp only
  generalize declaredVersion d source = x at version
  generalize declaredVersion d' source = y at version
  cases version with
  | error failures => exact ⟨.error failures, rfl, rfl, .nil, .refl _⟩
  | ok _ =>
    obtain ⟨outcomes, heard, warnings, snapshots⟩ := Graph.resolveAll_kin (g := g) kin
    refine ⟨outcomes, heard, warnings, ?_, snapshots⟩
    exact (Graph.deliveries_kin kin).imp fun _ _ h => ⟨h.1, h.2.alike⟩

/-- A document with one schema, whose properties come in an order of their own. -/
def tidy : Json :=
  .obj [("openapi", .str "3.0.0"),
    ("components", .obj [("schemas", .obj [("Pet", .obj [("type", .str "object"),
      ("minProperties", .int 1), ("x-table", .str "pets"),
      ("properties", .obj [("tag", .obj [("type", .str "string"), ("pattern", .str "a*")]),
        ("age", .obj [("type", .str "integer")])])])])]),
    ("paths", .obj [])]

/-- The same document, with its other keys turned round. -/
def untidy : Json :=
  .obj [("paths", .obj []),
    ("components", .obj [("schemas", .obj [("Pet", .obj [
      ("properties", .obj [("tag", .obj [("pattern", .str "a*"), ("type", .str "string")]),
        ("age", .obj [("type", .str "integer")])]),
      ("x-table", .str "pets"), ("minProperties", .int 1), ("type", .str "object")])])]),
    ("openapi", .str "3.0.0")]

/-- Both documents are accepted, and leave snapshots that are written alike. -/
theorem reordering_keeps_output_pets :
    tidy.isLiteral = true ∧ tidy.arranged false = untidy.arranged false ∧
      (Graph.empty.parse (τ := Unit) tidy none).outcome.isOk = true ∧
      Alike (Graph.empty.parse (τ := Unit) tidy none).graph.snapshot.toJson
        (Graph.empty.parse (τ := Unit) untidy none).graph.snapshot.toJson := by
  have literal : tidy.isLiteral = true := by decide +kernel
  have same : tidy.arranged false = untidy.arranged false := by
    simp [tidy, untidy, Json.arranged, Json.arrangedEntries, Json.walkedKeys, Json.sortEntries,
      List.mergeSort]
  obtain ⟨-, -, -, -, snapshots⟩ := reordering_keeps_output Graph.empty literal same none
  exact ⟨literal, same, by decide +kernel, snapshots⟩

end ApiGraph
