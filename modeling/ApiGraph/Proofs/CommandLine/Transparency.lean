import ApiGraph.Proofs.CommandLine.History
import ApiGraph.Proofs.Reception
import ApiGraph.Proofs.Store

/-! Runs with the store and runs without it. A run that finds a snapshot in the store ends as a run
without the store does on the document that the snapshot was made of; that document has the same key,
but may list its parts in another order. -/

namespace ApiGraph

namespace Datum

mutual

/-- Whether two values are the same text, or mappings of such values. -/
def isSame : Datum → Datum → Bool
  | .text s, .text t => s == t
  | .map es, .map fs => areSame es fs
  | _, _ => false

/-- Whether two lists of entries are the same, one after the other. -/
def areSame : List (Datum × Datum) → List (Datum × Datum) → Bool
  | [], [] => true
  | (k, v) :: es, (j, w) :: fs => isSame k j && isSame v w && areSame es fs
  | _, _ => false

end

mutual

theorem eq_of_isSame : ∀ (d e : Datum), d.isSame e = true → d = e
  | .text s, .text t, h => congrArg Datum.text (eq_of_beq (by simpa [isSame] using h))
  | .map es, .map fs, h => congrArg Datum.map (eq_of_areSame es fs (by simpa [isSame] using h))

theorem eq_of_areSame : ∀ es fs : List (Datum × Datum), areSame es fs = true → es = fs
  | [], [], _ => rfl
  | (k, v) :: es, (j, w) :: fs, h => by
    simp only [areSame, Bool.and_eq_true] at h
    rw [eq_of_isSame k j h.1.1, eq_of_isSame v w h.1.2, eq_of_areSame es fs h.2]

end

end Datum

namespace CommandLine

open Attempt

variable {α β γ δ : Type} {s : Setup} {files files' : Files.Tree} {store store' : Store}
  {rules : StoreSettings} {g : Graph String} {d d' : Datum} {snapshot : Json} {source source' : String}
  {output : Option String} {k : String}

/-- Two computations fail with the same exit code, or succeed with results that are related. -/
def Tallies (R : α → β → Prop) : Except Failure α → Except Failure β → Prop
  | .ok a, .ok b => R a b
  | .error f, .error f' => f.code = f'.code
  | _, _ => False

namespace Tallies

variable {R : α → β → Prop} {x : Except Failure α} {y : Except Failure β}

theorem bind {S : γ → δ → Prop} {f : α → Except Failure γ} {g : β → Except Failure δ}
    (h : Tallies R x y) (hn : ∀ a b, R a b → Tallies S (f a) (g b)) :
    Tallies S (x >>= f) (y >>= g) := by
  cases x <;> cases y <;> first | exact h | exact hn _ _ h | exact h.elim

/-- Computations that tally end runs with the same exit code. -/
theorem codes (h : Tallies R x y) : codeOf x = codeOf y := by
  cases x <;> cases y <;> first | exact h | rfl | exact h.elim

theorem outputs {x y : Except Failure String} (h : Tallies Eq x y) :
    x.toOption.getD "" = y.toOption.getD "" := by
  cases x <;> cases y <;> first | exact h | rfl | exact h.elim

end Tallies

/-- A document with a key is looked for under it, if the store is switched on. -/
theorem find?_of_key (store : Store) (rules : StoreSettings) (hk : Store.key d = .ok k) :
    store.find? rules d = .ok none ∨ ∃ snapshot, store.find? rules d = .ok (some snapshot) ∧
      store.entries.lookup k = some snapshot := by
  unfold Store.find?
  rw [hk]
  cases rules.enabled with
  | false => exact .inl rfl
  | true =>
    cases hl : store.entries.lookup k with
    | none => exact .inl (congrArg Except.ok hl)
    | some snapshot => exact .inr ⟨snapshot, congrArg Except.ok hl, rfl⟩

/-- A snapshot can be kept for a document with a key. -/
theorem keep_of_key (store : Store) (hk : Store.key d = .ok k)
    (counts : (Double.ofInt rules.seconds).isFinite = true) (j : Json) :
    ∃ after, store.keep rules d j = .ok after := by
  unfold Store.keep
  rw [hk, counts]
  cases rules.enabled with
  | false => exact ⟨store, rfl⟩
  | true =>
    by_cases h : 0 < rules.seconds
    · exact ⟨{ store with entries := Dict.put store.entries k j }, by simp [h]⟩
    · exact ⟨{ store with entries := store.entries.filter fun p => p.1 != k }, by simp [h]⟩

/-- Switching the store off changes nothing else in the settings. -/
theorem settled_withoutStore (s : Setup) (files : Files.Tree) :
    settled s files true = (settled s files false).map fun x => (x.1, x.2.withoutStore) := by
  unfold settled
  cases files.provide (s.convention.settings s.environment) with
  | error f => rfl
  | ok x =>
    obtain ⟨directory, files⟩ := x
    change (Settings.load files directory s.environment ⟨none, true⟩ >>= _) = Except.map _
      (Settings.load files directory s.environment ⟨none, false⟩ >>= _)
    unfold Settings.load
    cases Settings.ofFile files (Settings.fileIn directory) with
    | error f => rfl
    | ok settings =>
      cases s.environment.isOff "SPECGRAPH_CACHE" <;> rfl

/-- The store works in a run: its seconds can be counted, its directory can be made where it is
due, and the output can be written whether the directory is there or not. -/
def Setup.StoreWorks (s : Setup) (files : Files.Tree) (output : Option String) : Prop :=
  ∀ files₀ settings, settled s files false = .ok (files₀, settings) →
    (Double.ofInt settings.store.seconds).isFinite = true ∧
      ∀ files₁, shelved s settings.withoutStore.store files₀ = .ok files₁ →
        ∃ files₂, shelved s settings.store files₀ = .ok files₂ ∧ ∀ path, output = some path →
          ∀ text, (files₂.write (.ofText path) text).1.isOk = (files₁.write (.ofText path) text).1.isOk

/-- A store that is switched off is opened if one that is switched on is. -/
theorem shelved_error {settings : Settings} {f : Failure}
    (h : shelved s settings.withoutStore.store files = .error f) :
    shelved s settings.store files = .error f := by
  unfold shelved at h ⊢
  cases hp : files.provide (s.convention.store s.environment) with
  | error f' =>
    rw [hp] at h
    exact h
  | ok x =>
    rw [hp] at h
    cases h

theorem Tallies.delivered
    (h : ∀ path, output = some path → ∀ text,
      (files.write (.ofText path) text).1.isOk = (files'.write (.ofText path) text).1.isOk) :
    Tallies Eq (delivered files snapshot output) (delivered files' snapshot output) := by
  cases output with
  | none => rfl
  | some path =>
    have same := h path rfl (textOf snapshot)
    unfold CommandLine.delivered
    dsimp only
    generalize (files.write (.ofText path) (textOf snapshot)).1 = x at same ⊢
    generalize (files'.write (.ofText path) (textOf snapshot)).1 = y at same ⊢
    cases x <;> cases y <;> first | rfl | cases same

/-- A document without a stored snapshot is resolved, and its snapshot is kept. -/
theorem resolved_of_missed (missed : store.find? rules d = .ok none) :
    resolved g d source rules store = do
      let _ ← (g.parseDatum d (some source)).outcome
      let after ← store.keep rules d (g.parseDatum d (some source)).graph.snapshot.toJson
      return ((g.parseDatum d (some source)).graph.snapshot.toJson, after) := by
  unfold resolved
  rw [missed]
  rfl

/-- A stored snapshot is loaded. -/
theorem resolved_of_found (found : store.find? rules d = .ok (some snapshot)) :
    resolved g d source rules store = do
      let _ ← (g.loadJson snapshot true).outcome
      return (snapshot, store) := by
  unfold resolved
  rw [found]
  rfl

/-- Without the store a document is resolved, and nothing is kept. -/
theorem resolved_off {off : StoreSettings} (hoff : off.enabled = false) :
    resolved g d source off store = do
      let _ ← (g.parseDatum d (some source)).outcome
      return ((g.parseDatum d (some source)).graph.snapshot.toJson, store) := by
  have missed : store.find? off d = .ok none := by
    unfold Store.find?
    rw [hoff]
    rfl
  have kept (j : Json) : store.keep off d j = .ok store := by
    unfold Store.keep
    rw [hoff]
    rfl
  rw [resolved_of_missed missed, kept]
  rfl

section Resolved

variable (g) (source source' : String) {off : StoreSettings} (hoff : off.enabled = false)
include hoff

/-- A store without a snapshot for a document makes no difference. -/
theorem Tallies.resolved_new (missed : store.find? rules d = .ok none)
    (kept : ∀ j, ∃ after, store.keep rules d j = .ok after) :
    Tallies (fun x y => x.1 = y.1) (resolved g d source rules store)
      (resolved g d source' off store) := by
  rw [resolved_of_missed missed, resolved_off hoff]
  rcases g.parseDatum_source d (some source) (some source') with same | ⟨f, f', hf, hf', code⟩
  · rw [← same]
    obtain ⟨after, hk⟩ := kept (g.parseDatum d (some source)).graph.snapshot.toJson
    rw [hk]
    cases (g.parseDatum d (some source)).outcome <;> rfl
  · rw [hf, hf']
    exact congrArg (Option.getD · 1) code

/-- A stored snapshot stands for the document that it was made of. -/
theorem Tallies.resolved_stored (steady : g.audience.Steady)
    (found : store.find? rules d = .ok (some snapshot)) (made : MadeOf d' k snapshot)
    (read : ∃ stored, Snapshot.ofJson snapshot = .ok stored) :
    Tallies (fun x y => x.1 = y.1) (resolved g d source rules store)
      (resolved g d' source' off store) := by
  rw [resolved_of_found found, resolved_off hoff]
  obtain ⟨-, g₀, source₀, accepted, rfl⟩ := made
  obtain ⟨stored, read⟩ := read
  rcases Graph.parse_or_load (some source') accepted steady read with
    ⟨parsed, loaded, same⟩ | ⟨message, message', parsed, loaded⟩
  · rw [parsed, loaded, same]
    rfl
  · rw [parsed, loaded]
    rfl

end Resolved

theorem gathered_steady {rules : RosterSettings} {audience : Audience String}
    (h : gathered s rules = .ok audience) : audience.Steady := by
  obtain ⟨names, -, h⟩ := of_bind_ok h
  obtain ⟨u, -, h⟩ := of_bind_ok h
  cases h
  exact Roster.steady_subscribe _

/-- Runs with the store and without it differ in what they do with their documents, and in nothing
else. -/
theorem Tallies.parsed_of_documents {files₀ : Files.Tree} {settings : Settings}
    (hs : settled s files false = .ok (files₀, settings)) (works : s.StoreWorks files output)
    (input : String) (answer : String → Answer)
    (h : Tallies (fun d d' => ∀ audience : Audience String, audience.Steady →
        Tallies (fun x y => x.1 = y.1)
          (resolved (attendedBy audience) d source settings.store store)
          (resolved (attendedBy audience) d' source' settings.withoutStore.store store))
      (documentAt s files source) (documentAt { s with input, answer } files source')) :
    Tallies Eq (parsed s ⟨files, store⟩ source output false)
      (parsed { s with input, answer } ⟨files, store⟩ source' output true) := by
  have off : settled { s with input, answer } files true = .ok (files₀, settings.withoutStore) := by
    change settled s files true = _
    rw [settled_withoutStore, hs]
    rfl
  rw [documentAt_of_settled hs, documentAt_of_settled off] at h
  unfold CommandLine.parsed prepared
  rw [hs, off]
  simp only [bind_assoc, pure_bind]
  change Tallies Eq
    (gathered s settings.roster >>= fun audience => _) (gathered s settings.roster >>= fun audience => _)
  cases ha : gathered s settings.roster with
  | error f => rfl
  | ok audience =>
    change Tallies Eq ((Source.ofText source).load _ >>= _) ((Source.ofText source').load _ >>= _)
    refine Tallies.bind h fun d d' hr => ?_
    change Tallies Eq (shelved s settings.store files₀ >>= _)
      (shelved s settings.withoutStore.store files₀ >>= _)
    cases hf : shelved s settings.withoutStore.store files₀ with
    | error f =>
      rw [shelved_error hf]
      rfl
    | ok files₁ =>
      obtain ⟨files₂, opened, writes⟩ := (works _ _ hs).2 files₁ hf
      rw [opened]
      change Tallies Eq (resolved _ d source settings.store store >>= _)
        (resolved _ d' source' settings.withoutStore.store store >>= _)
      refine Tallies.bind (hr audience (gathered_steady ha)) fun x y hxy => ?_
      obtain ⟨snapshot, after⟩ := x
      obtain ⟨snapshot', after'⟩ := y
      obtain rfl : snapshot = snapshot' := hxy
      exact Tallies.delivered writes

/-- What a run with the store comes to, a run without it comes to as well that finds the same at its
source, or the document that the stored snapshot was made of. -/
theorem Tallies.parsed (runs : List Run) (s : Setup) (files : Files.Tree) (source : String)
    (output : Option String) (works : s.StoreWorks files output)
    (keyed : ∀ d, documentAt s files source = .ok d → ∃ k, Store.key d = .ok k)
    (sound : ∀ d k snapshot, documentAt s files source = .ok d → Store.key d = .ok k →
      (storeAfter runs).entries.lookup k = some snapshot →
        ∃ stored, Snapshot.ofJson snapshot = .ok stored) :
    ∃ found, (found = documentAt s files source ∨
        ∃ d d', documentAt s files source = .ok d ∧ found = .ok d' ∧ Store.key d' = Store.key d ∧
          ∃ r ∈ runs, r.document? = some d') ∧
      ∀ input answer source', documentAt { s with input, answer } files source' = found →
        Tallies Eq (parsed s ⟨files, storeAfter runs⟩ source output false)
          (parsed { s with input, answer } ⟨files, storeAfter runs⟩ source' output true) := by
  cases hs : settled s files false with
  | error f =>
    refine ⟨documentAt s files source, .inl rfl, fun input answer source' _ => ?_⟩
    have off : settled { s with input, answer } files true = .error f := by
      change settled s files true = _
      rw [settled_withoutStore, hs]
      rfl
    unfold CommandLine.parsed prepared
    rw [hs, off]
    rfl
  | ok x =>
    obtain ⟨files₀, settings⟩ := x
    cases hd : documentAt s files source with
    | error f =>
      refine ⟨.error f, .inl rfl, fun input answer source' same => ?_⟩
      refine Tallies.parsed_of_documents hs works input answer ?_
      rw [hd, same]
      rfl
    | ok d =>
      obtain ⟨k, hk⟩ := keyed d hd
      rcases find?_of_key (storeAfter runs) settings.store hk with missed | ⟨snapshot, found, stored⟩
      · refine ⟨.ok d, .inl rfl, fun input answer source' same => ?_⟩
        refine Tallies.parsed_of_documents hs works input answer ?_
        rw [hd, same]
        exact fun audience _ => Tallies.resolved_new (attendedBy audience) source source' rfl missed
          (keep_of_key (storeAfter runs) hk (works _ _ hs).1)
      · obtain ⟨r, hr, d', hd', made⟩ := made_of_stored stored
        refine ⟨.ok d', .inr ⟨d, d', rfl, rfl, made.1.trans hk.symm, r, hr, hd'⟩,
          fun input answer source' same => ?_⟩
        refine Tallies.parsed_of_documents hs works input answer ?_
        rw [hd, same]
        exact fun audience steady => Tallies.resolved_stored (attendedBy audience) source source' rfl
          steady found made (sound d k snapshot hd hk stored)

/-- The store makes no difference to what is seen of a run but for the order of the parts of its
document. After any runs, a run with the store ends with the same exit code and the same output as
every run without it that finds the same at its source, or that finds there the document of an
earlier run with the same key. -/
theorem stored_run_is_fresh_run (runs : List Run) (s : Setup) (files : Files.Tree)
    (flags : List Flag) (source : String) (output : Option String)
    (works : s.StoreWorks files output)
    (keyed : ∀ d, documentAt s files source = .ok d → ∃ k, Store.key d = .ok k)
    (sound : ∀ d k snapshot, documentAt s files source = .ok d → Store.key d = .ok k →
      (storeAfter runs).entries.lookup k = some snapshot →
        ∃ stored, Snapshot.ofJson snapshot = .ok stored) :
    ∃ found, (found = documentAt s files source ∨
        ∃ d d', documentAt s files source = .ok d ∧ found = .ok d' ∧ Store.key d' = Store.key d ∧
          ∃ r ∈ runs, r.document? = some d') ∧
      ∀ input answer source', documentAt { s with input, answer } files source' = found →
        let w : World := ⟨files, storeAfter runs⟩
        let stored := (execute s w flags (.parse source output false false)).1
        let fresh := (execute { s with input, answer } w flags (.parse source' output false true)).1
        stored.exitCode = fresh.exitCode ∧ stored.output = fresh.output := by
  obtain ⟨found, here, tallies⟩ := Tallies.parsed runs s files source output works keyed sound
  refine ⟨found, here, fun input answer source' same => ?_⟩
  have tally := tallies input answer source' same
  intro w stored fresh
  obtain ⟨code, shown, -⟩ := execute_parse s w flags source output false
  obtain ⟨code', shown', -⟩ := execute_parse { s with input, answer } w flags source' output true
  rw [code, code', shown, shown']
  exact ⟨tally.codes, tally.outputs⟩

/-- A snapshot that is stored for some time is there after the run that made it or found it. -/
theorem lookup_of_resolved (hk : Store.key d = .ok k) (on : rules.enabled = true)
    (lasting : 0 < rules.seconds) (h : resolved g d source rules store = .ok (snapshot, store')) :
    store'.entries.lookup k = some snapshot := by
  rcases find?_of_key store rules hk with missed | ⟨stored, found, here⟩
  · rw [resolved_of_missed missed] at h
    obtain ⟨u, -, h⟩ := of_bind_ok h
    obtain ⟨after, kept, h⟩ := of_bind_ok h
    cases h
    obtain ⟨off, -⟩ | ⟨-, key, hk', ⟨-, rfl⟩ | ⟨brief, -⟩⟩ := keep_cases kept
    · cases on.symm.trans off
    · obtain rfl := Except.ok.inj (hk.symm.trans hk')
      exact Dict.lookup_put_self _ _ _
    · exact absurd lasting brief
  · rw [resolved_of_found found] at h
    obtain ⟨u, -, h⟩ := of_bind_ok h
    cases h
    exact here

/-- A run that finds its document under a stored key prints what is stored there. -/
theorem printed_of_stored (hd : documentAt s files source = .ok d) (hk : Store.key d = .ok k)
    {w : World} (hw : w.files = files) (stored : w.store.entries.lookup k = some snapshot)
    {files₀ : Files.Tree} {settings : Settings} (hs : settled s files false = .ok (files₀, settings))
    (on : settings.store.enabled = true) {shown : String}
    (h : parsed s w source none false = .ok shown) : shown = textOf snapshot := by
  subst hw
  obtain ⟨⟨tree, json, after⟩, prepared, h⟩ := of_bind_ok h
  obtain ⟨x, hx, h'⟩ := of_bind_ok prepared
  obtain rfl : x = (files₀, settings) := Except.ok.inj (hx.symm.trans hs)
  obtain ⟨audience, -, h'⟩ := of_bind_ok h'
  obtain ⟨d', hd', h'⟩ := of_bind_ok h'
  obtain rfl : d' = d :=
    Except.ok.inj (hd'.symm.trans ((documentAt_of_settled hs source).symm.trans hd))
  obtain ⟨files₁, -, h'⟩ := of_bind_ok h'
  obtain ⟨y, hy, h'⟩ := of_bind_ok h'
  cases h'
  cases h
  rcases find?_of_key w.store settings.store hk with missed | ⟨stored', found, here⟩
  · unfold Store.find? at missed
    rw [hk, on] at missed
    exact absurd (stored.symm.trans (Except.ok.inj missed)) (by simp)
  · obtain rfl : stored' = snapshot := Option.some.inj (here.symm.trans stored)
    rw [resolved_of_found found] at hy
    obtain ⟨u, -, hy⟩ := of_bind_ok hy
    cases hy
    rfl

/-- A run that is given a text, and finds no settings and no generators. -/
def reading (text : String) : Setup where
  environment := [("XDG_CONFIG_HOME", "config"), ("XDG_CACHE_HOME", "cache"), ("XDG_DATA_HOME", "data")]
  convention := .bases
  isScreen := false
  installed := []
  input := text
  answer := fun _ => .refused ""
  time := ""

/-- A description of two paths. -/
def twoPaths (a b : String) : Datum :=
  .map [(.text "openapi", .text "3.0.0"),
    (.text "paths", .map [(.text a, .map []), (.text b, .map [])])]

/-- The text of the description. -/
def twoPaths.text (a b : String) : String :=
  "\x7b\"openapi\": \"3.0.0\", \"paths\": \x7b\"" ++ a ++ "\": \x7b\x7d, \"" ++ b ++ "\": \x7b\x7d\x7d\x7d"

theorem documentAt_of_isSame {s : Setup} {files : Files.Tree} {source : String} {d : Datum}
    (h : (documentAt s files source).toOption.any (·.isSame d) = true) :
    documentAt s files source = .ok d := by
  cases hd : documentAt s files source with
  | error f => rw [hd] at h; cases h
  | ok e => rw [hd] at h; rw [Datum.eq_of_isSame e d h]

theorem documentAt_twoPaths :
    documentAt (reading (twoPaths.text "/a" "/b")) [] "-" = .ok (twoPaths "/a" "/b") ∧
      documentAt (reading (twoPaths.text "/b" "/a")) [] "-" = .ok (twoPaths "/b" "/a") :=
  ⟨documentAt_of_isSame (by decide +kernel), documentAt_of_isSame (by decide +kernel)⟩

open Datum Json in
/-- The schemas have the same ordered form in either order. -/
theorem ordered_twoPaths (a b : String) :
    ∃ j, (twoPaths a b).ordered = .ok j ∧ (twoPaths b a).ordered = .ok j := by
  have blank : (Datum.map []).ordered = .ok (.obj (sortEntries [])) := @ordered_texts [] [] .nil
  have listed (a b : String) : (Datum.map [(.text a, .map []), (.text b, .map [])]).ordered =
      .ok (.obj (sortEntries [(a, .obj (sortEntries [])), (b, .obj (sortEntries []))])) :=
    @ordered_texts [(a, .map []), (b, .map [])] _ (.cons ⟨rfl, blank⟩ (.cons ⟨rfl, blank⟩ .nil))
  have swapped : sortEntries [(b, Json.obj (sortEntries [])), (a, .obj (sortEntries []))] =
      sortEntries [(a, .obj (sortEntries [])), (b, .obj (sortEntries []))] := by
    refine sortEntries_eq_iff.2 fun k => ?_
    cases ha : a == k <;> cases hb : b == k <;> simp [Json.under, ha, hb]
  have whole {a b : String} {j : Json}
      (h : (Datum.map [(.text a, .map []), (.text b, .map [])]).ordered = .ok j) :
      (twoPaths a b).ordered = .ok (.obj (sortEntries [("openapi", .str "3.0.0"), ("paths", j)])) :=
    @ordered_texts [("openapi", .text "3.0.0"), ("paths", .map [(.text a, .map []), (.text b, .map [])])]
      [("openapi", .str "3.0.0"), ("paths", j)] (.cons ⟨rfl, rfl⟩ (.cons ⟨rfl, h⟩ .nil))
  exact ⟨_, whole (listed a b), whole (swapped ▸ listed b a)⟩

theorem key_twoPaths (a b : String) :
    ∃ k, Store.key (twoPaths a b) = .ok k ∧ Store.key (twoPaths b a) = .ok k := by
  obtain ⟨j, first, second⟩ := ordered_twoPaths a b
  have same := Store.key_eq_of_ordered (second.trans first.symm)
  rw [same, Store.key, Store.keyText, first]
  exact ⟨_, rfl, rfl⟩

/-- The run that resolves the paths in the order of the alphabet. -/
def firstRun : Run := ⟨reading (twoPaths.text "/a" "/b"), [], [], .parse "-" none false false⟩

theorem settled_twoPaths (text : String) : ∃ files settings,
    settled (reading text) [] false = .ok (files, settings) ∧
    settings.store = .default ∧ (shelved (reading text) .default files).isOk = true := by
  have known : ((settled (reading "") [] false).toOption.any fun x => x.2.store.enabled &&
      decide (x.2.store.seconds = 86400) && (shelved (reading "") .default x.1).isOk) = true := by
    decide +kernel
  change ∃ files settings, settled (reading "") [] false = .ok (files, settings) ∧
    settings.store = .default ∧ (shelved (reading "") .default files).isOk = true
  cases hs : settled (reading "") [] false with
  | error f =>
    rw [hs] at known
    cases known
  | ok x =>
    obtain ⟨files, format, ⟨enabled, seconds⟩, roster, extras⟩ := x
    rw [hs] at known
    simp only [Except.toOption, Option.any, Bool.and_eq_true, decide_eq_true_eq] at known
    obtain ⟨⟨rfl, rfl⟩, opened⟩ := known
    exact ⟨_, _, rfl, rfl, opened⟩

/-- What one run leaves in a new store. -/
theorem storeAfter_one (s : Setup) (files : Files.Tree) (flags : List Flag) (source : String)
    (output : Option String) (noCache : Bool) :
    (storeAfter [⟨s, files, flags, .parse source output false noCache⟩]).entries =
      match prepared s ⟨files, .new⟩ source noCache with
      | .ok (_, _, store) => store.entries
      | .error _ => Store.new.entries :=
  (execute_parse s ⟨files, .new⟩ flags source output noCache).2.2

/-- What the first run stored is found under the key of the paths in the other order. -/
theorem stored_firstRun : ∃ k files snapshot store, Store.key (twoPaths "/b" "/a") = .ok k ∧
    prepared (reading (twoPaths.text "/a" "/b")) ⟨[], .new⟩ "-" false = .ok (files, snapshot, store) ∧
    (storeAfter [firstRun]).entries.lookup k = some snapshot := by
  obtain ⟨k, hk, hk'⟩ := key_twoPaths "/a" "/b"
  have succeeds : (prepared (reading (twoPaths.text "/a" "/b")) ⟨[], .new⟩ "-" false).isOk = true := by
    decide +kernel
  rw [firstRun, storeAfter_one]
  cases hp : prepared (reading (twoPaths.text "/a" "/b")) ⟨[], .new⟩ "-" false with
  | error f =>
    rw [hp] at succeeds
    cases succeeds
  | ok x =>
    obtain ⟨files, snapshot, store⟩ := x
    refine ⟨k, files, snapshot, store, hk', rfl, ?_⟩
    obtain ⟨files₀, settings, hs, rules, -⟩ := settled_twoPaths (twoPaths.text "/a" "/b")
    obtain ⟨y, hy, h⟩ := of_bind_ok hp
    obtain rfl : y = (files₀, settings) := Except.ok.inj (hy.symm.trans hs)
    obtain ⟨audience, -, h⟩ := of_bind_ok h
    obtain ⟨d, hd, h⟩ := of_bind_ok h
    obtain rfl : d = twoPaths "/a" "/b" := Except.ok.inj
      (hd.symm.trans ((documentAt_of_settled hs "-").symm.trans documentAt_twoPaths.1))
    obtain ⟨files', -, h⟩ := of_bind_ok h
    obtain ⟨z, hz, h⟩ := of_bind_ok h
    cases h
    rw [rules] at hz
    exact lookup_of_resolved hk rfl (by decide +kernel) hz

/-- A run that finds its document under a stored key prints what is stored there, if it prints
anything. -/
theorem output_of_stored {s : Setup} {w : World} {d : Datum} {source k : String} {snapshot : Json}
    {files : Files.Tree} {settings : Settings} (hd : documentAt s w.files source = .ok d)
    (hk : Store.key d = .ok k) (stored : w.store.entries.lookup k = some snapshot)
    (hs : settled s w.files false = .ok (files, settings)) (on : settings.store.enabled = true)
    (flags : List Flag) :
    (execute s w flags (.parse source none false false)).1.output = "" ∨
      (execute s w flags (.parse source none false false)).1.output = textOf snapshot := by
  obtain ⟨-, printed, -⟩ := execute_parse s w flags source none false
  rw [printed]
  cases h : parsed s w source none false with
  | error f => exact .inl rfl
  | ok shown => exact .inr (printed_of_stored hd hk rfl stored hs on h)

/-- A run with the store prints the paths in the order in which an earlier run found them, and the
same run without the store prints them in the order of its own document. -/
theorem order_of_first_run_is_printed :
    (execute (reading (twoPaths.text "/b" "/a")) ⟨[], storeAfter [firstRun]⟩ []
        (.parse "-" none false false)).1.output ≠
      (execute (reading (twoPaths.text "/b" "/a")) ⟨[], storeAfter [firstRun]⟩ []
        (.parse "-" none false true)).1.output := by
  obtain ⟨k, files, snapshot, store, hk, hp, stored⟩ := stored_firstRun
  obtain ⟨files₀, settings, hs, rules, -⟩ := settled_twoPaths (twoPaths.text "/b" "/a")
  have differs : ((prepared (reading (twoPaths.text "/a" "/b")) ⟨[], .new⟩ "-" false).toOption.all fun x =>
      (fun text => text != "" && text != textOf x.2.1)
        (execute (reading (twoPaths.text "/b" "/a")) ⟨[], storeAfter [firstRun]⟩ []
          (.parse "-" none false true)).1.output) = true := by
    decide +kernel
  rw [hp] at differs
  have on : settings.store.enabled = true := congrArg StoreSettings.enabled rules
  have printed := output_of_stored (w := ⟨[], storeAfter [firstRun]⟩) documentAt_twoPaths.2 hk stored hs
    on []
  generalize (execute _ ⟨[], storeAfter [firstRun]⟩ [] (.parse "-" none false false)).1.output = shown
    at printed ⊢
  generalize (execute _ ⟨[], storeAfter [firstRun]⟩ [] (.parse "-" none false true)).1.output = fresh
    at differs ⊢
  simp only [Except.toOption, Option.all, Bool.and_eq_true, bne_iff_ne] at differs
  rcases printed with rfl | rfl
  · exact differs.1.symm
  · exact differs.2.symm

theorem storeWorks_reading (text : String) : (reading text).StoreWorks [] none := by
  intro files₁ settings₁ hs
  obtain ⟨files₀, settings, hs', rules, opened⟩ := settled_twoPaths text
  obtain ⟨rfl, rfl⟩ := Prod.mk.inj (Except.ok.inj (hs.symm.trans hs'))
  rw [rules]
  refine ⟨by decide +kernel, fun files₂ _ => ?_⟩
  cases ho : shelved (reading text) .default files₁ with
  | error f =>
    rw [ho] at opened
    cases opened
  | ok files₃ => exact ⟨files₃, rfl, nofun⟩

/-- The second run ends as a fresh run on its own document or on that of the first run does. -/
theorem stored_run_is_fresh_run_swapped :
    (∃ k, Store.key (twoPaths "/b" "/a") = .ok k ∧ (storeAfter [firstRun]).entries.lookup k ≠ none) ∧
    ∃ found, (found = documentAt (reading (twoPaths.text "/b" "/a")) [] "-" ∨
        ∃ d d', documentAt (reading (twoPaths.text "/b" "/a")) [] "-" = .ok d ∧ found = .ok d' ∧
          Store.key d' = Store.key d ∧ ∃ r ∈ [firstRun], r.document? = some d') ∧
      ∀ input answer source',
        documentAt { reading (twoPaths.text "/b" "/a") with input, answer } [] source' = found →
        let w : World := ⟨[], storeAfter [firstRun]⟩
        let stored := (execute (reading (twoPaths.text "/b" "/a")) w [] (.parse "-" none false false)).1
        let fresh := (execute { reading (twoPaths.text "/b" "/a") with input, answer } w []
          (.parse source' none false true)).1
        stored.exitCode = fresh.exitCode ∧ stored.output = fresh.output := by
  obtain ⟨k, files, snapshot, store, hk, hp, stored⟩ := stored_firstRun
  have known {d : Datum} (hd : documentAt (reading (twoPaths.text "/b" "/a")) [] "-" = .ok d) :
      d = twoPaths "/b" "/a" := Except.ok.inj (hd.symm.trans documentAt_twoPaths.2)
  have reread : ((prepared (reading (twoPaths.text "/a" "/b")) ⟨[], .new⟩ "-" false).toOption.any fun x =>
      (Snapshot.ofJson x.2.1).isOk) = true := by
    decide +kernel
  rw [hp] at reread
  have keyed (d : Datum) (hd : documentAt (reading (twoPaths.text "/b" "/a")) [] "-" = .ok d) :
      ∃ k, Store.key d = .ok k := ⟨k, by rw [known hd]; exact hk⟩
  have sound (d : Datum) (k' : String) (snapshot' : Json)
      (hd : documentAt (reading (twoPaths.text "/b" "/a")) [] "-" = .ok d) (hk' : Store.key d = .ok k')
      (hl : (storeAfter [firstRun]).entries.lookup k' = some snapshot') :
      ∃ stored, Snapshot.ofJson snapshot' = .ok stored := by
    rw [known hd] at hk'
    obtain rfl := Except.ok.inj (hk.symm.trans hk')
    obtain rfl := Option.some.inj (stored.symm.trans hl)
    cases hj : Snapshot.ofJson snapshot with
    | error f =>
      simp only [Except.toOption, Option.any, hj] at reread
      cases reread
    | ok s => exact ⟨s, rfl⟩
  have held : (storeAfter [firstRun]).entries.lookup k ≠ none := by
    rw [stored]
    nofun
  have fresh := stored_run_is_fresh_run [firstRun] (reading (twoPaths.text "/b" "/a")) [] [] "-" none
    (storeWorks_reading _) keyed sound
  refine ⟨⟨k, hk, held⟩, ?_⟩
  dsimp only at fresh ⊢
  exact fresh

end CommandLine

end ApiGraph
