import ApiGraph.Graph
import ApiGraph.Proofs.Attempt
import ApiGraph.Proofs.Dict
import ApiGraph.Proofs.Entity.Reading

/-! Snapshots that are read from what was written of them. -/

namespace ApiGraph

open Json Shape Attempt

/-- What remains of an entity once it is written. -/
def Entity.finite : Entity → Entity
  | .model m => .model m.finite
  | e => e

/-- The entity is of the class of its category, and the models in it satisfy something. -/
def Entity.Fit (P : Model → Prop) (category : Kind) : Entity → Prop
  | .method _ => category = .method
  | .path _ => category = .path
  | .model m => category ≠ .method ∧ category ≠ .path ∧ m.Throughout P
  | .ref _ => False

namespace Snapshot

/-- What remains of a snapshot once it is written. -/
def finite (s : Snapshot) : Snapshot where
  events := s.events.map fun p => (p.1, p.2.map Entity.finite)
  models := s.models.map fun p => (p.1, p.2.finite)

/-- No category has two lists, every entity is of the class of its category, and all models satisfy
something. -/
structure Fit (P : Model → Prop) (s : Snapshot) : Prop where
  categories : (Dict.keys s.events).Nodup
  entities : ∀ x ∈ s.events, ∀ e ∈ x.2, e.Fit P x.1
  models : ∀ x ∈ s.models, x.2.Throughout P

variable {P Q : Model → Prop} {s t : Snapshot} {e : Entity} {k : Kind}

theorem Fit.imp (h : s.Fit P) (sub : ∀ m, P m → Q m) : s.Fit Q where
  categories := h.categories
  entities x hx e he := by
    have fit := h.entities x hx e he
    cases e with
    | model m => exact ⟨fit.1, fit.2.1, fit.2.2.imp sub⟩
    | _ => exact fit
  models x hx := (h.models x hx).imp sub

end Snapshot

variable {P : Model → Prop} {s t : Snapshot} {e : Entity} {k : Kind}

theorem Entity.ofJson_toJson (h : e.Fit (fun m => m.finite.Typed) k) :
    Entity.ofJson k e.toJson = .fits e.finite := by
  cases e with
  | method m =>
    obtain rfl : k = .method := h
    rw [ofJson, toJson, m.ofJson_toJson]
    rfl
  | path p =>
    obtain rfl : k = .path := h
    rw [ofJson, toJson, p.ofJson_toJson]
    rfl
  | model m =>
    obtain ⟨hm, hp, typed⟩ := h
    unfold ofJson
    split
    · contradiction
    · contradiction
    · rw [toJson, Model.ofJson_toJson typed]
      rfl
  | ref r => cases h

theorem Entity.alike_toJson (h : e.Fit Model.Bounded k) : Alike e.finite.toJson e.toJson := by
  cases e with
  | model m => exact Model.alike_toJson h.2.2
  | _ => exact .refl _

namespace Snapshot

theorem word_ne_modelsKey (k : Kind) : k.word ≠ modelsKey := by cases k <;> decide

theorem readEntry_category {es : List Entity} (h : ∀ e ∈ es, e.Fit (fun m => m.finite.Typed) k) :
    s.readEntry (k.word, .arr (es.map Entity.toJson)) =
      .ok { s with events := Dict.put s.events k (es.map Entity.finite) } := by
  have read : (es.map Entity.toJson).mapM (fun v => accept (Entity.ofJson k v)) =
      .ok (es.map Entity.finite) := mapM_ok fun e he => by rw [Entity.ofJson_toJson (h e he), accept]
  simp only [readEntry, word_ne_modelsKey, if_false, Kind.ofWord?_word, itemsOf, parts?, bind,
    Except.bind, read]
  rfl

theorem readEntry_models {models : Dict String Model}
    (h : ∀ x ∈ models, x.2.Throughout fun m => m.finite.Typed) :
    s.readEntry (modelsKey, .obj (models.map fun p => (p.1, p.2.toJson))) =
      .ok { s with models := models.map fun p => (p.1, p.2.finite) } := by
  have read : readModels (.obj (models.map fun p => (p.1, p.2.toJson))) =
      .ok (models.map fun p => (p.1, p.2.finite)) :=
    mapM_ok fun x hx => by rw [Model.ofJson_toJson (h x hx)]; rfl
  simp only [readEntry, if_true, bind, Except.bind, read]
  rfl

theorem readEntries {events : Dict Kind (List Entity)}
    (h : ∀ x ∈ events, ∀ e ∈ x.2, e.Fit (fun m => m.finite.Typed) x.1) :
    (events.map fun p => (p.1.word, .arr (p.2.map Entity.toJson))).foldlM readEntry s =
      .ok { s with
        events := Dict.merge s.events (events.map fun p => (p.1, p.2.map Entity.finite)) } := by
  induction events generalizing s with
  | nil => rfl
  | cons x events ih =>
    rw [List.map_cons, List.foldlM_cons, readEntry_category (h x List.mem_cons_self)]
    exact ih fun y hy => h y (List.mem_cons_of_mem _ hy)

/-- A snapshot whose entities are of the declared types is read. -/
theorem ofJson_toJson (h : s.Fit fun m => m.finite.Typed) : ofJson s.toJson = .ok s.finite := by
  have categories := h.categories
  rw [← Dict.keys_map s.events (List.map Entity.finite)] at categories
  have events := Dict.ofEntries_of_nodup categories
  rw [toJson, ofJson, List.foldlM_append, readEntries h.entities]
  change List.foldlM readEntry _ _ = _
  rw [List.foldlM_cons, readEntry_models h.models]
  change Except.ok (Snapshot.mk (Dict.ofEntries _) _) = _
  rw [events]
  rfl

theorem alike_toJson (h : s.Fit Model.Bounded) : Alike s.finite.toJson s.toJson := by
  have entities {k : Kind} {es : List Entity} (fit : ∀ e ∈ es, e.Fit Model.Bounded k) :
      Alike (.arr ((es.map Entity.finite).map Entity.toJson)) (.arr (es.map Entity.toJson)) := by
    rw [List.map_map]
    exact .map_arr fun e he => Entity.alike_toJson (fit e he)
  have events : Aligned
      (s.finite.events.map fun p => (p.1.word, .arr (p.2.map Entity.toJson)))
      (s.events.map fun p => (p.1.word, .arr (p.2.map Entity.toJson))) := by
    rw [finite, List.map_map]
    exact .map fun x hx => ⟨rfl, entities (h.entities x hx)⟩
  have models : Aligned (s.finite.models.map fun p => (p.1, p.2.toJson))
      (s.models.map fun p => (p.1, p.2.toJson)) := by
    rw [finite, List.map_map]
    exact .map fun x hx => ⟨rfl, Model.alike_toJson (h.models x hx)⟩
  exact (events.append (.entry models.obj)).obj

theorem accept_error {α : Type} {c : Checked α} {flaw : LoadFlaw} (h : accept c = .error flaw) :
    ∃ mismatches, flaw = .snapshotMismatch mismatches := by
  cases c with
  | fits a => cases h
  | fails ms =>
    cases h
    exact ⟨_, rfl⟩

theorem readModels_error {v : Json} {flaw : LoadFlaw} (h : readModels v = .error flaw) :
    ∃ mismatches, flaw = .snapshotMismatch mismatches := by
  unfold readModels at h
  split at h
  · obtain ⟨x, -, hx⟩ := of_mapM_error h
    obtain ha | ⟨m, -, hx⟩ := of_bind_error hx
    · exact accept_error ha
    · cases hx
  · cases h
    exact ⟨_, rfl⟩

theorem itemsOf_error {v : Json} {flaw : LoadFlaw} (h : itemsOf v = .error flaw) :
    ∃ mismatches, flaw = .snapshotMismatch mismatches := by
  unfold itemsOf at h
  split at h
  · cases h
  · cases h
    exact ⟨_, rfl⟩

theorem readEntry_error {x : String × Json} {flaw : LoadFlaw} (h : s.readEntry x = .error flaw) :
    (x.1 ≠ modelsKey ∧ Kind.ofWord? x.1 = none ∧ flaw = .unknownCategory x.1) ∨
      ∃ mismatches, flaw = .snapshotMismatch mismatches := by
  unfold readEntry at h
  split at h
  · obtain hm | ⟨models, -, h⟩ := of_bind_error h
    · exact Or.inr (readModels_error hm)
    · cases h
  · next hk =>
    split at h
    · next hw =>
      cases h
      exact Or.inl ⟨hk, hw, rfl⟩
    · obtain hi | ⟨items, -, h⟩ := of_bind_error h
      · exact Or.inr (itemsOf_error hi)
      · obtain hm | ⟨entities, -, h⟩ := of_bind_error h
        · obtain ⟨v, -, hv⟩ := of_mapM_error hm
          exact Or.inr (accept_error hv)
        · cases h

/-- Why a value is no snapshot: it is no object, it has a key that names no category, or one of its
parts does not fit. -/
theorem ofJson_flaw {d : Json} {flaw : LoadFlaw} (h : ofJson d = .error flaw) :
    (flaw = .notSnapshot ∧ d.isObject = false) ∨
      (∃ key, d.has key = true ∧ key ≠ modelsKey ∧ Kind.ofWord? key = none ∧
        flaw = .unknownCategory key) ∨ ∃ mismatches, flaw = .snapshotMismatch mismatches := by
  cases d with
  | obj entries =>
    obtain ⟨x, hx, s, hs⟩ := of_foldlM_error h
    obtain ⟨hk, hw, rfl⟩ | mismatch := readEntry_error hs
    · exact Or.inr (Or.inl ⟨x.1, (Dict.mem_keys_iff_has entries x.1).1 (List.mem_map_of_mem hx), hk, hw,
        rfl⟩)
    · exact Or.inr (Or.inr mismatch)
  | _ =>
    cases h
    exact Or.inl ⟨rfl, rfl⟩

theorem fits_of_accept {α : Type} {c : Checked α} {a : α} (h : accept c = .ok a) : c.Fits := by
  cases c with
  | fits b => exact ⟨b, rfl⟩
  | fails ms => cases h

/-- All entities of a snapshot that is read fit. -/
theorem fits_of_ofJson (h : ofJson s.toJson = .ok t) :
    (∀ x ∈ s.events, ∀ e ∈ x.2, (Entity.ofJson x.1 e.toJson).Fits) ∧
      ∀ x ∈ s.models, (Model.ofJson x.2.toJson).Fits := by
  have entries := of_foldlM_ok h
  constructor
  · intro x hx e he
    obtain ⟨r, r', hr⟩ := entries (x.1.word, .arr (x.2.map Entity.toJson))
      (List.mem_append_left _ (List.mem_map.2 ⟨x, hx, rfl⟩))
    simp only [readEntry, word_ne_modelsKey, if_false, Kind.ofWord?_word] at hr
    obtain ⟨items, hi, hr⟩ := of_bind_ok hr
    cases hi
    obtain ⟨entities, hm, -⟩ := of_bind_ok hr
    obtain ⟨e', he'⟩ := of_mapM_ok hm e.toJson (List.mem_map_of_mem he)
    exact fits_of_accept he'
  · intro x hx
    obtain ⟨r, r', hr⟩ := entries (modelsKey, .obj (s.models.map fun p => (p.1, p.2.toJson)))
      (List.mem_append_right _ (List.mem_singleton.2 rfl))
    simp only [readEntry, if_true] at hr
    obtain ⟨models, hm, -⟩ := of_bind_ok hr
    obtain ⟨m', hm'⟩ := of_mapM_ok hm (x.1, x.2.toJson) (List.mem_map.2 ⟨x, hx, rfl⟩)
    obtain ⟨m, ha, -⟩ := of_bind_ok hm'
    exact fits_of_accept ha

end Snapshot

/-- A snapshot of entities of the declared types is read from what was written of it, and is written
alike again, unless a model was resolved from a double without a JSON form. Any other value is a
snapshot, or is refused with the flaw that it has. -/
theorem snapshot_comes_back {τ : Type}
    (typed : s.Fit fun m => m.Typed ∧ m.source.isUnbounded = false) :
    (∃ t, Snapshot.ofJson s.toJson = .ok t ∧ Alike t.toJson s.toJson) ∧
      ∀ d, (∃ t, Snapshot.ofJson d = .ok t) ∨
        ∃ flaw, Snapshot.ofJson d = .error flaw ∧
          ((flaw = .notSnapshot ∧ d.isObject = false) ∨
            (∃ key, d.has key = true ∧ key ≠ Snapshot.modelsKey ∧ Kind.ofWord? key = none ∧
              flaw = .unknownCategory key) ∨ ∃ mismatches, flaw = .snapshotMismatch mismatches) ∧
          ∀ (g : Graph τ) (emit : Bool), g.loadJson d emit = g.refused (.load flaw) := by
  refine ⟨⟨s.finite, Snapshot.ofJson_toJson (typed.imp fun m hm => hm.1.finite),
    Snapshot.alike_toJson (typed.imp fun m hm => hm.1.bounded hm.2)⟩, fun d => ?_⟩
  cases h : Snapshot.ofJson d with
  | ok t => exact Or.inl ⟨t, rfl⟩
  | error flaw =>
    refine Or.inr ⟨flaw, rfl, Snapshot.ofJson_flaw h, fun g emit => ?_⟩
    rw [Graph.loadJson, h]

/-- A model with a null default, a handle, and another model with a null default inside. -/
def nested : Model :=
  { Model.blank "Pet" .schema with
    default := some .null
    dependencies := [.ref (.named "Tag"),
      .model { Model.blank "PetOwner" .parameter with default := some .null }] }

theorem snapshot_comes_back_nested :
    Snapshot.Fit (fun m => m.Typed ∧ m.source.isUnbounded = false)
        ⟨[(.schema, [.model nested])], [("Pet", nested)]⟩ ∧
      ∃ t, Snapshot.ofJson (Snapshot.toJson ⟨[(.schema, [.model nested])], [("Pet", nested)]⟩) = .ok t ∧
        Alike t.toJson (Snapshot.toJson ⟨[(.schema, [.model nested])], [("Pet", nested)]⟩) := by
  have plain (name : String) (kind : Kind) (d : Option Json) (links : List (Link Model)) :
      Model.Typed { Model.blank name kind with default := d, dependencies := links } :=
    ⟨Or.inl rfl, Or.inl rfl, by simp [Model.blank]⟩
  have throughout : nested.Throughout fun m => m.Typed ∧ m.source.isUnbounded = false := by
    refine .intro ⟨plain _ _ _ _, rfl⟩ ?_ ?_ ?_
    · simp [nested, Model.blank, Model.inner, Model.branches, Ref.named, Kind.isRef]
    · simp [nested, Model.blank, Model.inner, Model.branches, Kind.isRef]
    · intro k hk
      obtain rfl : k = { Model.blank "PetOwner" .parameter with default := some .null } := by
        simpa [nested, Model.blank, Model.inner, Model.branches] using hk
      exact .intro ⟨plain _ _ _ _, rfl⟩ (by simp [Model.blank, Model.inner, Model.branches])
        (by simp [Model.blank, Model.inner, Model.branches])
        (by simp [Model.blank, Model.inner, Model.branches])
  have fit : Snapshot.Fit (fun m => m.Typed ∧ m.source.isUnbounded = false)
      ⟨[(.schema, [.model nested])], [("Pet", nested)]⟩ := by
    refine ⟨by decide, ?_, ?_⟩
    · simpa [Entity.Fit] using throughout
    · simpa using throughout
  exact ⟨fit, (snapshot_comes_back (τ := Unit) fit).1⟩

/-- A snapshot of a model that was resolved from a double without a JSON form. -/
def boundless : Snapshot :=
  ⟨[(.schema, [.model { Model.blank "Pet" .schema with source := .float (.infinite false) }])], []⟩

/-- What such a model was resolved from is written as null, and is not there when the model is read
and written again. -/
theorem boundless_source_is_lost :
    boundless.Fit Model.Typed ∧
      ¬ ∃ t, Snapshot.ofJson boundless.toJson = .ok t ∧ Alike t.toJson boundless.toJson := by
  have fit : boundless.Fit Model.Typed := by
    refine ⟨by decide, ?_, by simp [boundless]⟩
    simp only [boundless, List.mem_singleton, forall_eq, Entity.Fit]
    refine ⟨by decide, by decide, .intro ⟨Or.inl rfl, Or.inl rfl, ?_⟩ ?_ ?_ ?_⟩
    all_goals simp [Model.blank, Model.inner, Model.branches]
  refine ⟨fit, ?_⟩
  rintro ⟨t, ht, alike⟩
  obtain rfl : boundless.finite = t :=
    Except.ok.inj ((Snapshot.ofJson_toJson (fit.imp fun m hm => hm.finite)).symm.trans ht)
  have schemas := alike.get "SCHEMA"
  cases schemas with
  | arr _ items => exact absurd ((items 0 _ _ rfl rfl).has_eq "sourceSchema") (by decide)

end ApiGraph
