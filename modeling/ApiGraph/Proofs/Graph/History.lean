import ApiGraph.Proofs.Reload

/-! Sequences of calls on a graph. What a graph holds is all of the last document that was resolved
and delivered, or of the last snapshot that was adopted; any other call leaves it as it was. -/

namespace ApiGraph.Graph

variable {τ : Type} {g g' : Graph τ} {document : Json} {visits : List Visit}

/-- What is asked of a graph. -/
inductive Call (τ : Type)
  | listen (category : Kind) (l : Listener τ)
  | parse (document : Json) (source : Option String)
  | parseDatum (value : Datum) (source : Option String)
  | load (snapshot : Snapshot) (emit : Bool)
  | loadJson (data : Json) (emit : Bool)

/-- The change that a call makes. -/
def make (g : Graph τ) : Call τ → Change τ
  | .listen category l => ⟨.ok (), g.on category l, [], []⟩
  | .parse document source => g.parse document source
  | .parseDatum value source => g.parseDatum value source
  | .load snapshot emit => g.load snapshot emit
  | .loadJson data emit => g.loadJson data emit

/-- The graph after some calls, whatever came of them. -/
def run (g : Graph τ) (calls : List (Call τ)) : Graph τ := calls.foldl (fun g c => (g.make c).graph) g

/-- What a graph holds, without its listeners. -/
def content (g : Graph τ) : Graph τ := { g with audience := [] }

namespace Call

/-- A snapshot that is given has its entities under categories of their classes, and no model
twice. -/
def Plain : Call τ → Prop
  | .load s _ => s.Fit (fun _ => True) ∧ (Dict.keys s.models).Nodup
  | .loadJson data _ => ∀ s, Snapshot.ofJson data = .ok s → (Dict.keys s.models).Nodup
  | _ => True

/-- A call gives a graph something new to hold: its document is resolved and delivered, or its
snapshot is adopted, even if a listener ends the delivery. -/
def Takes (g : Graph τ) : Call τ → Prop
  | .listen _ _ => False
  | .parse document source => (g.parse document source).outcome = .ok ()
  | .parseDatum value source => (g.parseDatum value source).outcome = .ok ()
  | .load _ _ => True
  | .loadJson data _ => ∃ s, Snapshot.ofJson data = .ok s

/-- The document that a call is about. -/
def document? : Call τ → Option Json
  | .parse document _ => some document
  | .parseDatum value _ => value.toJson.toOption
  | _ => none

/-- The snapshot that a call is about. -/
def snapshot? : Call τ → Option Snapshot
  | .load s _ => some s
  | .loadJson data _ => (Snapshot.ofJson data).toOption
  | _ => none

end Call

/-- None of some calls gives the graph something new to hold. -/
def Idle (g : Graph τ) : List (Call τ) → Prop
  | [] => True
  | c :: rest => ¬ c.Takes g ∧ Idle (g.make c).graph rest

/-- All that a graph holds is of one call: of a document that was accepted, or of a snapshot. -/
inductive Holds (g : Graph τ) (c : Call τ) : Prop
  | resolved (document : Json) (asked : c.document? = some document) (g₁ g₂ : Graph τ)
    (accepted : Accepts g₁ document g₂) (same : g.content = g₂.content)
  | adopted (s : Snapshot) (asked : c.snapshot? = some s) (same : g.content = (empty.adopt s).content)

/-- The tables of a graph are those of its snapshot. -/
structure Coherent (g : Graph τ) : Prop where
  methods : g.methods = g.snapshot.methods
  paths : g.paths = g.snapshot.paths
  models : g.registry.models = g.snapshot.models

namespace Account

theorem coherent (account : Account document g visits) (proper : g.registry.Proper) : g.Coherent := by
  have made : ∀ x ∈ g.registry.models, x.2.kind.isMade = true := fun x hx => (proper.2 x hx).1.kind
  refine ⟨?_, ?_, by rw [account.snapshot]⟩
  · rw [account.methods, Arena.ofWalk, Snapshot.methods, account.get_eq_under,
      under_method_stream made, List.filterMap_map, List.flatMap_map]
    dsimp only [Visit.walked]
    rw [← List.map_flatMap]
    exact (congrArg _ (congrFun List.filterMap_eq_map' _)).symm
  · rw [account.paths, Arena.ofWalk, Snapshot.paths, account.get_eq_under, under_path_stream made]
    simp only [List.map_map, List.filterMap_map, Function.comp_def, List.filterMap_eq_map',
      Visit.walked]

/-- Every operation that a path lists is there under its identifier. -/
theorem has_method (account : Account document g visits) {p : Path} (hp : p ∈ Dict.values g.paths)
    {id : String} (hid : id ∈ p.methods) : Dict.has g.methods id = true := by
  obtain ⟨s, t, -, chain, -⟩ := account.run
  obtain ⟨x, hx, rfl⟩ := List.mem_map.1 hp
  rw [account.paths] at hx
  obtain ⟨w, hw, rfl⟩ := List.mem_map.1 (Dict.mem_ofEntries hx)
  obtain ⟨v, hv, rfl⟩ := List.mem_map.1 hw
  obtain ⟨_, _, -, -, -, ids, -⟩ := chain.mem hv
  obtain ⟨m, hm, rfl⟩ := List.mem_map.1 (ids ▸ hid)
  rw [account.methods, ← Dict.mem_keys_iff_has]
  refine Dict.mem_keys_ofEntries.2 (List.mem_map.2 ⟨(m.id, m), ?_, rfl⟩)
  exact List.mem_flatMap.2 ⟨_, List.mem_map_of_mem hv, List.mem_map_of_mem hm⟩

end Account

/-- A description that is not resolved and delivered leaves what a graph holds. -/
theorem content_resolveAll (h : (g.resolveAll document).outcome ≠ .ok ()) :
    (g.resolveAll document).graph.content = g.content := by
  unfold resolveAll at h ⊢
  generalize (walk document).run.run .start = w at h ⊢
  obtain ⟨walked, progress⟩ := w
  dsimp only at h ⊢
  generalize (Delivering.play progress.notices).run.run g.stage = d at h ⊢
  obtain ⟨played, stage⟩ := d
  cases played with
  | error f => rfl
  | ok u =>
    cases walked with
    | error f => rfl
    | ok arena => exact absurd rfl h

/-- A call that gives a graph nothing new leaves what the graph holds. -/
theorem content_make {c : Call τ} (h : ¬ c.Takes g) : (g.make c).graph.content = g.content := by
  cases c with
  | listen category l => rfl
  | parse document source =>
    change (g.parse document source).outcome ≠ _ at h
    change (g.parse document source).graph.content = _
    unfold Graph.parse at h ⊢
    split at h
    · rfl
    · exact content_resolveAll h
  | parseDatum value source =>
    change (g.parseDatum value source).outcome ≠ _ at h
    change (g.parseDatum value source).graph.content = _
    unfold Graph.parseDatum at h ⊢
    split at h
    · rfl
    · split at h
      · rfl
      · exact content_resolveAll h
  | load s emit => exact absurd trivial h
  | loadJson data emit =>
    change (g.loadJson data emit).graph.content = _
    unfold loadJson
    split
    · next s hs => exact absurd ⟨s, hs⟩ h
    · rfl

theorem content_run_of_idle {calls : List (Call τ)} (h : g.Idle calls) :
    (g.run calls).content = g.content := by
  induction calls generalizing g with
  | nil => rfl
  | cons c rest ih => exact (ih h.2).trans (content_make h.1)

/-- A snapshot that is loaded is held, even if a listener ends its delivery. -/
theorem content_load (g : Graph τ) (s : Snapshot) (emit : Bool) :
    (g.load s emit).graph.content = (empty.adopt s).content := by
  unfold load
  cases emit <;> rfl

/-- A call that gives a graph something new gives it all that it holds. -/
theorem holds_make {c : Call τ} (h : c.Takes g) : (g.make c).graph.Holds c := by
  cases c with
  | listen category l => exact h.elim
  | parse document source => exact .resolved document rfl g _ (.json h) rfl
  | parseDatum value source =>
    cases form : value.toJson with
    | error flaw =>
      change (g.parseDatum value source).outcome = _ at h
      unfold Graph.parseDatum at h
      rw [form] at h
      split at h <;> cases h
    | ok document =>
      exact .resolved document (by rw [Call.document?, form]; rfl) g _ (.datum form h) rfl
  | load s emit => exact .adopted s rfl (content_load g s emit)
  | loadJson data emit =>
    obtain ⟨s, hs⟩ := h
    refine .adopted s (by rw [Call.snapshot?, hs]; rfl) ?_
    change (g.loadJson data emit).graph.content = _
    rw [loadJson, hs]
    exact content_load g s emit

theorem Coherent.of_content (same : g'.content = g.content) (h : g.Coherent) : g'.Coherent := by
  have coherent : g.content.Coherent := ⟨h.methods, h.paths, h.models⟩
  rw [← same] at coherent
  exact ⟨coherent.methods, coherent.paths, coherent.models⟩

theorem Holds.of_content {c : Call τ} (same : g'.content = g.content) (h : g.Holds c) : g'.Holds c := by
  cases h with
  | resolved document asked g₁ g₂ accepted same' =>
    exact .resolved document asked g₁ g₂ accepted (same.trans same')
  | adopted s asked same' => exact .adopted s asked (same.trans same')

/-- The tables of a graph that holds what one call gave it are those of its snapshot. -/
theorem Holds.coherent {c : Call τ} (h : g.Holds c) (plain : c.Plain) : g.Coherent := by
  cases h with
  | resolved document asked g₁ g₂ accepted same =>
    obtain ⟨visits, account⟩ := accepted.account
    exact (account.coherent accepted.proper).of_content same
  | adopted s asked same =>
    have nodup : (Dict.keys s.models).Nodup := by
      cases c with
      | load s' emit =>
        cases asked
        exact plain.2
      | loadJson data emit =>
        refine plain s ?_
        rw [Call.snapshot?] at asked
        cases hs : Snapshot.ofJson data <;> rw [hs] at asked <;> cases asked
        rfl
      | _ => cases asked
    have adopted : (empty.adopt s : Graph τ).Coherent := ⟨rfl, rfl, Dict.ofEntries_of_nodup nodup⟩
    exact adopted.of_content same

/-- Every operation that a path lists is there under its identifier, if a document was resolved. -/
theorem Holds.has_method {c : Call τ} (h : g.Holds c) (asked : c.snapshot? = none) {p : Path}
    (hp : p ∈ Dict.values g.paths) {id : String} (hid : id ∈ p.methods) :
    Dict.has g.methods id = true := by
  cases h with
  | resolved document _ g₁ g₂ accepted same =>
    obtain ⟨visits, account⟩ := accepted.account
    have methods : g.content.methods = g₂.content.methods := by rw [same]
    have paths : g.content.paths = g₂.content.paths := by rw [same]
    have listed : p ∈ Dict.values g₂.paths := by
      rw [← show g.paths = g₂.paths from paths]
      exact hp
    rw [show g.methods = g₂.methods from methods]
    exact account.has_method listed hid
  | adopted s asked' _ =>
    rw [asked] at asked'
    cases asked'

/-- Among some calls there is a last one that gives a graph something new, unless none does. -/
theorem last_taken (g : Graph τ) (calls : List (Call τ)) :
    g.Idle calls ∨ ∃ before c rest, calls = before ++ c :: rest ∧ c.Takes (g.run before) ∧
      ((g.run before).make c).graph.Idle rest := by
  induction calls generalizing g with
  | nil => exact .inl trivial
  | cons c calls ih =>
    rcases ih (g.make c).graph with idle | ⟨before, last, rest, rfl, takes, idle⟩
    · by_cases h : c.Takes g
      · exact .inr ⟨[], c, calls, rfl, h, idle⟩
      · exact .inl ⟨h, idle⟩
    · exact .inr ⟨c :: before, last, rest, rfl, takes, idle⟩

/-- After any calls, the tables of a graph are those of its snapshot. All of what it holds is of the
last call that gave it something new, or it holds nothing if there was none; if that was a document,
every operation that a path lists is there. A call that gives nothing new leaves all as it was. -/
theorem holds_last_taken (calls : List (Call τ)) (plain : ∀ c ∈ calls, c.Plain) :
    let g := empty.run calls
    g.Coherent ∧
      ((empty.Idle calls ∧ g.content = empty) ∨
        ∃ before c rest, calls = before ++ c :: rest ∧ c.Takes (empty.run before) ∧
          ((empty.run before).make c).graph.Idle rest ∧ g.Holds c ∧
          (c.snapshot? = none → ∀ p ∈ Dict.values g.paths, ∀ id ∈ p.methods,
            Dict.has g.methods id = true)) ∧
      ∀ c, ¬ c.Takes g → (g.make c).graph.content = g.content := by
  intro g
  rcases last_taken empty calls with idle | ⟨before, c, rest, rfl, takes, idle⟩
  · have same : g.content = (empty : Graph τ).content := content_run_of_idle idle
    have coherent : (empty : Graph τ).Coherent := ⟨rfl, rfl, rfl⟩
    exact ⟨coherent.of_content same, .inl ⟨idle, same⟩, fun c => content_make⟩
  · have same : g.content = ((empty.run before).make c).graph.content := by
      rw [← content_run_of_idle idle]
      exact congrArg content List.foldl_append
    have holds : g.Holds c := (holds_make takes).of_content same
    refine ⟨holds.coherent (plain c (by simp)), .inr ⟨before, c, rest, rfl, takes, idle, holds, ?_⟩,
      fun c => content_make⟩
    exact fun asked p hp id hid => holds.has_method asked hp hid

/-- A document that is resolved, and then again for a listener that ends the delivery, one of no
known version, and a value that is no snapshot. -/
def setbacks : List (Call String) :=
  [.parse twins none, .listen .path ⟨"paths", some (0, "closed")⟩, .parse twins none,
    .parse (.obj []) none, .loadJson (.arr []) true]

/-- The graph still holds the operations of the document. -/
theorem holds_last_taken_setbacks :
    (∀ c ∈ setbacks, c.Plain) ∧ (empty.run setbacks).Coherent ∧
      Dict.keys (empty.run setbacks).methods = ["get /pets", "post /pets"] ∧
      ∃ before c rest, setbacks = before ++ c :: rest ∧ c.Takes (empty.run before) ∧
        (empty.run setbacks).Holds c := by
  have plain : ∀ c ∈ setbacks, c.Plain := by
    simp only [setbacks, List.forall_mem_cons, List.not_mem_nil, false_imp_iff, implies_true, and_true]
    exact ⟨trivial, trivial, trivial, trivial, nofun⟩
  have methods : Dict.keys (empty.run setbacks).methods = ["get /pets", "post /pets"] := by
    decide +kernel
  obtain ⟨coherent, last, -⟩ := holds_last_taken setbacks plain
  refine ⟨plain, coherent, methods, ?_⟩
  rcases last with ⟨-, none⟩ | ⟨before, c, rest, split, takes, -, holds, -⟩
  · have nothing : Dict.keys (empty.run setbacks).content.methods = [] := by rw [none]; rfl
    rw [show Dict.keys (empty.run setbacks).content.methods = _ from methods] at nothing
    cases nothing
  · exact ⟨before, c, rest, split, takes, holds⟩

end ApiGraph.Graph
