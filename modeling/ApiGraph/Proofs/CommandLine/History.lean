import ApiGraph.Proofs.Attempt
import ApiGraph.Proofs.CommandLine.Parse
import ApiGraph.Proofs.Dict

/-! What the store holds after some runs: snapshots that earlier runs made, each under the key of the
document that it was made of. -/

namespace ApiGraph.CommandLine

open Attempt Running

/-- A run: what it is given, the files that it finds, and what it is asked to do. -/
structure Run where
  setup : Setup
  files : Files.Tree
  flags : List Flag
  command : Command

/-- The document at a source. It is read once the directory of the settings is there. -/
def documentAt (s : Setup) (files : Files.Tree) (source : String) : Except Failure Datum := do
  let (_, files) ← files.provide (s.convention.settings s.environment)
  (Source.ofText source).load ⟨files, s.input, s.answer⟩

/-- The document that a run resolves or finds in the store, if it can be read. -/
def Run.document? (r : Run) : Option Datum :=
  match r.command with
  | .parse source _ false _ => (documentAt r.setup r.files source).toOption
  | _ => none

/-- The store after a run. -/
def Run.after (store : Store) (r : Run) : Store :=
  (execute r.setup ⟨r.files, store⟩ r.flags r.command).2.store

/-- The store after some runs. -/
def storeAfter (runs : List Run) : Store := runs.foldl Run.after .new

/-- A snapshot was made of a document, whose key is known. -/
def MadeOf (d : Datum) (k : String) (snapshot : Json) : Prop :=
  Store.key d = .ok k ∧ ∃ (g : Graph String) (source : Option String),
    (g.parseDatum d source).outcome = .ok () ∧
      snapshot = (g.parseDatum d source).graph.snapshot.toJson

variable {s : Setup} {w : World} {files files' : Files.Tree} {store store' : Store}
  {rules : StoreSettings} {g : Graph String} {d : Datum} {snapshot : Json} {source : String}
  {settings : Settings} {noCache : Bool} {k : String}

/-- A document is read from the files that are there once the settings are known. -/
theorem documentAt_of_settled (h : settled s files noCache = .ok (files', settings))
    (source : String) :
    documentAt s files source = (Source.ofText source).load ⟨files', s.input, s.answer⟩ := by
  obtain ⟨⟨directory, tree⟩, hp, h⟩ := of_bind_ok h
  obtain ⟨read, -, h⟩ := of_bind_ok h
  cases h
  rw [documentAt, hp]
  rfl

/-- A store that is switched off keeps what it has. Any other gets the snapshot under the key of the
document, or loses what it had under it if nothing is kept for any time. -/
theorem keep_cases (h : store.keep rules d snapshot = .ok store') :
    (rules.enabled = false ∧ store' = store) ∨
    (rules.enabled = true ∧ ∃ key, Store.key d = .ok key ∧
      ((0 < rules.seconds ∧ store' = { store with entries := Dict.put store.entries key snapshot }) ∨
      (¬ 0 < rules.seconds ∧
        store' = { store with entries := store.entries.filter fun p => p.1 != key }))) := by
  unfold Store.keep at h
  split at h
  · next off =>
    cases h
    exact .inl ⟨by simpa using off, rfl⟩
  next on =>
  obtain ⟨key, hk, h⟩ := of_bind_ok h
  refine .inr ⟨by simpa using on, key, hk, ?_⟩
  dsimp only at h
  split at h
  · cases h
  · split at h <;> rename_i lasting <;> cases h
    · exact .inl ⟨lasting, rfl⟩
    · exact .inr ⟨lasting, rfl⟩

/-- What is kept is the new snapshot, or nothing. -/
theorem lookup_keep (h : store.keep rules d snapshot = .ok store') {j : Json}
    (hj : store'.entries.lookup k = some j) :
    store.entries.lookup k = some j ∨ (Store.key d = .ok k ∧ j = snapshot) := by
  obtain ⟨-, rfl⟩ | ⟨-, key, hk, ⟨-, rfl⟩ | ⟨-, rfl⟩⟩ := keep_cases h
  · exact .inl hj
  · by_cases same : k = key
    · subst same
      rw [Dict.lookup_put_self] at hj
      exact .inr ⟨hk, (Option.some.inj hj).symm⟩
    · rw [Dict.lookup_put_of_ne _ _ (beq_false_of_ne same)] at hj
      exact .inl hj
  · rw [Dict.lookup_remove] at hj
    split at hj
    · cases hj
    · exact .inl hj

theorem lookup_resolved (h : resolved g d source rules store = .ok (snapshot, store')) {j : Json}
    (hj : store'.entries.lookup k = some j) :
    store.entries.lookup k = some j ∨ MadeOf d k j := by
  obtain ⟨found, -, h⟩ := of_bind_ok h
  cases found with
  | some stored =>
    obtain ⟨u, -, h⟩ := of_bind_ok h
    cases h
    exact .inl hj
  | none =>
    obtain ⟨u, accepted, h⟩ := of_bind_ok h
    obtain ⟨kept, hk, h⟩ := of_bind_ok h
    cases h
    rcases lookup_keep hk hj with old | ⟨key, rfl⟩
    · exact .inl old
    · exact .inr ⟨key, g, some source, accepted, rfl⟩

theorem prepared_ok {x : Files.Tree × Json × Store} (h : prepared s w source noCache = .ok x) :
    ∃ g d rules, documentAt s w.files source = .ok d ∧
      resolved g d source rules w.store = .ok x.2 := by
  obtain ⟨⟨files, settings⟩, hs, h⟩ := of_bind_ok h
  obtain ⟨audience, -, h⟩ := of_bind_ok h
  obtain ⟨d, hd, h⟩ := of_bind_ok h
  obtain ⟨files', -, h⟩ := of_bind_ok h
  obtain ⟨y, hy, h⟩ := of_bind_ok h
  cases h
  exact ⟨attendedBy audience, d, settings.store, (documentAt_of_settled hs source).trans hd, hy⟩

namespace Running

/-- A step that leaves the store alone. -/
abbrev KeepsStore (step : Running α) : Prop := Keeps (fun p => p.world.store) step

theorem keepsStore_of_quiet {step : Running α} (h : IsQuiet step) : KeepsStore step :=
  Keeps.comp Prod.snd h

theorem keepsStore_showTable (headers : List String) (rows : List (List String)) :
    KeepsStore (showTable headers rows) := fun _ _ => rfl

theorem keepsStore_replay (source : String) (output : Option String) (noCache : Bool) :
    KeepsStore (parse source output true noCache) :=
  keepsStore_of_quiet (quiet_parse_again source output noCache)

theorem keepsStore_inspect (view : View) (source : String) : KeepsStore (inspect view source) := by
  refine (Keeps.load _).bind fun d => (Keeps.lift _).bind fun _ => (Keeps.lift _).bind fun rows => ?_
  split
  · exact keepsStore_of_quiet (quiet_say _ _)
  · exact keepsStore_showTable _ _

theorem keepsStore_generators : KeepsStore generators := by
  refine Keeps.bind (keepsStore_of_quiet (Keeps.closing quiet_members quiet_disband))
    fun found => ?_
  split
  · exact keepsStore_of_quiet (Keeps.bind (quiet_say _ _) fun _ => quiet_say _ _)
  · exact keepsStore_showTable _ _

end Running

/-- A run adds to the store no more than the snapshot that it made of its document. -/
theorem lookup_after {r : Run} {j : Json} (h : (r.after store).entries.lookup k = some j) :
    store.entries.lookup k = some j ∨ ∃ d, r.document? = some d ∧ MadeOf d k j := by
  obtain ⟨s, files, flags, c⟩ := r
  have kept (hc : KeepsStore (Running.command c)) :
      Run.after store ⟨s, files, flags, c⟩ = store := by
    rw [Run.after, (execute_eq s ⟨files, store⟩ flags c).2.2]
    exact hc _ _
  cases c with
  | inspect view source =>
    rw [kept (keepsStore_inspect view source)] at h
    exact .inl h
  | generators =>
    rw [kept keepsStore_generators] at h
    exact .inl h
  | parse source output again noCache =>
    cases again with
    | true =>
      rw [kept (keepsStore_replay source output noCache)] at h
      exact .inl h
    | false =>
      obtain ⟨-, -, left⟩ := execute_parse s ⟨files, store⟩ flags source output noCache
      rw [Run.after, left] at h
      cases hp : prepared s ⟨files, store⟩ source noCache with
      | error f =>
        rw [hp] at h
        exact .inl h
      | ok x =>
        rw [hp] at h
        obtain ⟨g, d, rules, hd, hr⟩ := prepared_ok hp
        have read : documentAt s files source = .ok d := hd
        exact (lookup_resolved hr h).imp_right fun made =>
          ⟨d, congrArg Except.toOption read, made⟩

/-- Every stored snapshot was made of the document of an earlier run. -/
theorem made_of_stored {runs : List Run} {j : Json}
    (h : (storeAfter runs).entries.lookup k = some j) :
    ∃ r ∈ runs, ∃ d, r.document? = some d ∧ MadeOf d k j := by
  have all (runs : List Run) (store : Store)
      (h : (runs.foldl Run.after store).entries.lookup k = some j) :
      store.entries.lookup k = some j ∨ ∃ r ∈ runs, ∃ d, r.document? = some d ∧ MadeOf d k j := by
    induction runs generalizing store with
    | nil => exact .inl h
    | cons r runs ih =>
      rcases ih (r.after store) h with before | ⟨r', hr', made⟩
      · exact (lookup_after before).imp_right fun made => ⟨r, List.mem_cons_self .., made⟩
      · exact .inr ⟨r', List.mem_cons_of_mem _ hr', made⟩
  rcases all runs .new h with none | made
  · cases none
  · exact made

end ApiGraph.CommandLine
