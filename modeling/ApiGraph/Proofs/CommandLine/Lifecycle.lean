import ApiGraph.Proofs.CommandLine.Parse

/-! The life of the generators in a run. Once all of them are started and subscribed, each is told
to clean up once, whatever becomes of the run. A run that ends before that, at a name that is taken
or at a generator that cannot subscribe, leaves those that it has started without cleaning up. -/

namespace ApiGraph.CommandLine

open Roster (begun deeds)

variable {audience : Audience String}

/-- What an audience hears of a run: nothing, or what is delivered by one change to a graph. -/
inductive Heard (audience : Audience String) : List (String × String) → Prop where
  | nothing : Heard audience []
  | parsed (document : Datum) (source : String) :
    Heard audience ((attendedBy audience).parseDatum document (some source)).heard
  | reloaded (data : Json) : Heard audience ((attendedBy audience).loadJson data true).heard
  | replayed (snapshot : Snapshot) : Heard audience ((attendedBy audience).load snapshot true).heard

/-- Every one of some generators was started once, then heard what there was to hear, and was told to
clean up once. -/
def IsBalanced (members : Dict String Generator) (journal : List (String × String)) : Prop :=
  ∃ heard, Heard (Roster.subscribeAll [] members).2 heard ∧
    journal = deeds .start members ++ heard ++ deeds .cleanUp members

namespace Running

variable {α β : Type} {given : Setup × Terminal} {p : Progress}

/-- A step that leaves the roster alone. -/
abbrev KeepsRoster (step : Running α) : Prop := Keeps Progress.roster step

theorem overlooks_roster : Overlooks Progress.roster := fun _ _ _ => rfl

/-- A step that does no more to the roster than to note what an audience heard. -/
def Sounds (audience : Audience String) (step : Running α) : Prop :=
  ∀ given p, ∃ heard, Heard audience heard ∧
    (step.exec given p).2.roster = { p.roster with journal := p.roster.journal ++ heard }

namespace Sounds

theorem after {step : Running α} {next : α → Running β} (h : KeepsRoster step)
    (hn : ∀ a, Sounds audience (next a)) : Sounds audience (step >>= next) := by
  intro given p
  rw [exec_bind]
  have first := h given p
  generalize step.exec given p = x at first
  obtain ⟨f | a, q⟩ := x
  · exact ⟨[], .nothing, by rw [List.append_nil]; exact first⟩
  · obtain ⟨heard, sounded, rest⟩ := hn a given q
    refine ⟨heard, sounded, rest.trans ?_⟩
    dsimp only at first
    rw [first]

theorem bind {step : Running α} {next : α → Running β} (h : Sounds audience step)
    (hn : ∀ a, KeepsRoster (next a)) : Sounds audience (step >>= next) := by
  intro given p
  rw [exec_bind]
  obtain ⟨heard, sounded, first⟩ := h given p
  generalize step.exec given p = x at first
  obtain ⟨f | a, q⟩ := x
  · exact ⟨heard, sounded, first⟩
  · exact ⟨heard, sounded, (hn a given q).trans first⟩

theorem adopt {c : Graph.Change String} (h : Heard audience c.heard) :
    Sounds audience (Running.adopt c) := by
  intro given p
  refine ⟨c.heard, h, ?_⟩
  rw [Running.adopt, exec_bind, exec_withRoster]
  exact ((Keeps.lift c.outcome).bind fun _ => .pure c.graph : KeepsRoster _) given _

end Sounds

theorem keepsRoster_openStore (rules : StoreSettings) : KeepsRoster (openStore rules) := by
  refine (overlooks_roster.provide _).bind fun place => ?_
  dsimp only
  split
  · exact (overlooks_roster.provide _).bind fun _ _ _ => rfl
  · exact (overlooks_roster.say _ _).bind fun _ _ _ => rfl

/-- A document is resolved, or its snapshot delivered again, at most once. -/
theorem sounds_resolve (source : String) (rules : StoreSettings) :
    Sounds audience (resolve (attendedBy audience) source rules) := by
  refine .after (Keeps.load source) fun document => .after (keepsRoster_openStore rules) fun _ =>
    .after Keeps.get fun _ => .after (Keeps.lift _) fun found? => ?_
  cases found? with
  | some stored =>
    exact .after (overlooks_roster.say _ _) fun _ => (Sounds.adopt (.reloaded stored)).bind fun _ =>
      .pure _
  | none =>
    exact (Sounds.adopt (.parsed document source)).bind fun _ => Keeps.get.bind fun _ =>
      (Keeps.lift _).bind fun _ _ _ => rfl

theorem sounds_replay (path : String) : Sounds audience (replay (attendedBy audience) path) := by
  refine .after Keeps.get fun _ => .after (Keeps.lift _) fun snapshot => .after Keeps.get fun _ => ?_
  have told (message : String) : Sounds audience (Running.adopt ((attendedBy audience).load snapshot true)
      >>= fun _ => say .success message) :=
    (Sounds.adopt (.replayed snapshot)).bind fun _ => overlooks_roster.say _ _
  dsimp only
  split
  · exact .after (overlooks_roster.say _ _) fun _ => told _
  · exact told _

theorem keepsRoster_deliver (g : Graph String) (snapshot : Json) (output : Option String) :
    KeepsRoster (deliver g snapshot output) := by
  unfold deliver
  cases output with
  | none => exact fun _ _ => rfl
  | some path => exact (overlooks_roster.writeFile _ _).bind fun _ => overlooks_roster.say _ _

/-- What is done between the start of the generators and their cleaning up is noted between the two. -/
theorem journal_closing {step : Running α} (h : Sounds audience step) (given : Setup × Terminal)
    (p : Progress) : ∃ heard, Heard audience heard ∧
      ((closing disband step).exec given p).2.roster.journal =
        p.roster.journal ++ heard ++ deeds .cleanUp p.roster.members := by
  obtain ⟨heard, sounded, noted⟩ := h given p
  obtain ⟨warnings, disbanded⟩ := Roster.run_disband (step.exec given p).2.roster
  refine ⟨heard, sounded, ?_⟩
  rw [exec_closing, disband, exec_withRoster, disbanded, noted]

end Running

namespace Running

/-- The settings are read before anything is done with the generators. -/
theorem exec_settings (s : Setup) (t : Terminal) (w : World) (noCache : Bool) :
    ∃ q, (settings noCache).exec (s, t) (.start w) =
        ((settled s w.files noCache).map Prod.snd, q) ∧ q.roster = .empty := by
  have start : (Progress.start w).Idle w.store.entries := ⟨rfl, rfl⟩
  have ends := ends_settings (s, t) start noCache
  have kept := overlooks_roster.settings noCache (s, t) (.start w)
  generalize (settings noCache).exec (s, t) (.start w) = x at ends kept
  obtain ⟨outcome, q⟩ := x
  change Ends w.store.entries (settled s w.files noCache) _ _ at ends
  refine ⟨q, Prod.ext ?_ rfl, kept⟩
  cases hs : settled s w.files noCache with
  | error f =>
    rw [hs] at ends
    exact ends.1
  | ok y =>
    rw [hs] at ends
    obtain ⟨_, succeeded, rfl, -⟩ := ends
    exact succeeded

/-- The generators are assembled: those that are started are in the roster, and if they are ready
they listen to the graph. -/
theorem exec_assemble (given : Setup × Terminal) (p : Progress) (empty : p.roster = .empty)
    (rules : RosterSettings) :
    let members := begun rules [] given.1.installed
    ∃ outcome q, (assemble rules).exec given p = (outcome, q) ∧ q.roster.members = members ∧
      q.roster.journal = deeds .start members ∧
      (Roster.IsReady rules given.1.installed ∧
          outcome = .ok (attendedBy (Roster.subscribeAll [] members).2) ∨
        ¬ Roster.IsReady rules given.1.installed ∧ ∃ f, outcome = .error f) := by
  intro members
  have discovered := Roster.run_discover rules given.1.installed .empty
  rw [Roster.isReady_iff]
  unfold assemble
  rw [exec_bind, exec_setup]
  dsimp only at discovered ⊢
  rw [exec_bind, exec_withRoster, empty]
  generalize (Roster.discover rules given.1.installed).run.run .empty = x at discovered
  obtain ⟨outcome, roster⟩ := x
  obtain ⟨ended, joined, noted⟩ := discovered
  cases outcome with
  | error f =>
    refine ⟨.error f, _, rfl, joined, noted, .inr ⟨fun clear => ?_, f, rfl⟩⟩
    rw [show Dict.keys Roster.empty.members = [] from rfl, clear.1] at ended
    cases ended
  | ok names =>
    have clear : Roster.clashes rules [] given.1.installed = false :=
      (Bool.not_eq_true' _).mp ended.symm
    have subscribed := Roster.isOk_subscribeAll members []
    have joined : roster.members = members := joined
    dsimp only
    rw [exec_bind, exec_say]
    dsimp only
    rw [exec_bind, exec_get]
    dsimp only
    rw [Roster.subscribe, joined]
    generalize Roster.subscribeAll [] members = y at subscribed
    obtain ⟨f | u, audience⟩ := y
    · refine ⟨.error f, _, rfl, joined, noted, .inr ⟨fun ready => ?_, f, rfl⟩⟩
      rw [ready.2] at subscribed
      cases subscribed
    · exact ⟨_, _, rfl, joined, noted, .inl ⟨⟨clear, subscribed.symm⟩, rfl⟩⟩

end Running

/-- The journal of a run is what its command noted. -/
theorem execute_journal (s : Setup) (w : World) (flags : List Flag) (c : Command) :
    (execute s w flags c).1.journal = (carriedOut s w flags c).2.roster.journal := by
  obtain ⟨q, reported, kept⟩ :=
    Running.exec_reported Running.overlooks_roster c (s, terminalOf s flags) (.start w)
  have run : (execute s w flags c).1.journal =
      ((Running.reported c).exec (s, terminalOf s flags) (.start w)).2.roster.journal := rfl
  rw [run, reported]
  exact congrArg Roster.journal kept

/-- The command that resolves a document or delivers a snapshot again, once the generators are
assembled. -/
def Running.perform (g : Graph String) (rules : StoreSettings) (source : String)
    (output : Option String) (again : Bool) : Running Unit :=
  if again then closing disband (replay g source)
  else do
    let (g, snapshot) ← closing disband (resolve g source rules)
    deliver g snapshot output

/-- Whatever becomes of the run, its members are told to clean up after all that they hear. -/
theorem Running.journal_perform (rules : StoreSettings) (source : String) (output : Option String)
    (again : Bool) (given : Setup × Terminal) (p : Progress) : ∃ heard, Heard audience heard ∧
      ((perform (attendedBy audience) rules source output again).exec given p).2.roster.journal =
        p.roster.journal ++ heard ++ deeds .cleanUp p.roster.members := by
  unfold perform
  cases again with
  | true => exact journal_closing (sounds_replay source) given p
  | false =>
    have sounds : Sounds audience (resolve (attendedBy audience) source rules) :=
      sounds_resolve source rules
    obtain ⟨heard, sounded, noted⟩ := journal_closing sounds given p
    refine ⟨heard, sounded, ?_⟩
    rw [← noted, if_neg Bool.false_ne_true, exec_bind]
    generalize (closing disband (resolve (attendedBy audience) source rules)).exec given p = x
    obtain ⟨f | ⟨g, snapshot⟩, q⟩ := x
    · rfl
    · exact congrArg Roster.journal (keepsRoster_deliver g snapshot output given q)

/-- What a run that lists the generators has in its roster before they clean up. -/
theorem Running.roster_members (s : Setup) (t : Terminal) (w : World) :
    let r := (members.exec (s, t) (.start w)).2.roster
    match settled s w.files false with
    | .error _ => r = .empty
    | .ok (_, settings) =>
      r.members = begun settings.roster [] s.installed ∧ r.journal = deeds .start r.members := by
  obtain ⟨p, read, empty⟩ := exec_settings s t w false
  unfold members
  rw [exec_bind, read]
  cases settled s w.files false with
  | error f => exact empty
  | ok y =>
    obtain ⟨-, joined, noted⟩ := Roster.run_discover y.2.roster s.installed .empty
    dsimp only [Except.map]
    rw [exec_bind, exec_setup]
    dsimp only
    rw [exec_bind, exec_withRoster, empty]
    generalize (Roster.discover y.2.roster s.installed).run.run .empty = x at joined noted
    obtain ⟨f | names, roster⟩ := x
    · exact ⟨joined, noted.trans (congrArg (deeds .start) joined.symm)⟩
    · exact ⟨joined, noted.trans (congrArg (deeds .start) joined.symm)⟩

/-- What a run shows of the generators that it lists. -/
def Running.listing (found : List Generator) : Running Unit := do
  if found.isEmpty then
    say .info "No generators installed."
    say .suggestion "Register one under the 'specgraph.generators' entry-point group."
  else showTable ["Name", "Version", "Description"] (found.map generatorRow)

theorem Running.keepsRoster_listing (found : List Generator) : KeepsRoster (listing found) := by
  unfold listing
  split
  · exact (overlooks_roster.say _ _).bind fun _ => overlooks_roster.say _ _
  · exact fun _ _ => rfl

/-- A run that lists the generators starts them too. It has each of them clean up once, also if it
ends at a name that is taken. -/
theorem listed_generators_clean_up (s : Setup) (w : World) (flags : List Flag) :
    let journal := (execute s w flags .generators).1.journal
    match settled s w.files false with
    | .error _ => journal = []
    | .ok (_, settings) =>
      let members := begun settings.roster [] s.installed
      journal = deeds .start members ++ deeds .cleanUp members := by
  intro journal
  have closed : journal = ((Running.closing Running.disband Running.members).exec
      (s, terminalOf s flags) (.start w)).2.roster.journal := by
    have hj : journal = ((Running.closing Running.disband Running.members >>= Running.listing).exec
      (s, terminalOf s flags) (.start w)).2.roster.journal := execute_journal ..
    rw [hj, Running.exec_bind]
    generalize (Running.closing Running.disband Running.members).exec _ _ = x
    obtain ⟨f | found, q⟩ := x
    · rfl
    · exact congrArg Roster.journal (Running.keepsRoster_listing found _ q)
  have before := Running.roster_members s (terminalOf s flags) w
  obtain ⟨warnings, disbanded⟩ := Roster.run_disband
    (Running.members.exec (s, terminalOf s flags) (.start w)).2.roster
  rw [Running.exec_closing, Running.disband, Running.exec_withRoster, disbanded] at closed
  dsimp only at before closed
  cases hs : settled s w.files false with
  | error f =>
    rw [hs] at before
    rw [before] at closed
    exact closed
  | ok y =>
    rw [hs] at before
    obtain ⟨joined, noted⟩ := before
    rw [noted, joined] at closed
    exact closed

/-- A run that is given an empty description, and finds no settings and some generators. -/
def hosting (installed : List (String × Generator)) : Setup where
  environment := [("XDG_CONFIG_HOME", "config"), ("XDG_CACHE_HOME", "cache"), ("XDG_DATA_HOME", "data")]
  convention := .bases
  isScreen := false
  installed := installed
  input := "\x7b\"openapi\": \"3.0.0\"\x7d"
  answer := fun _ => .refused ""
  time := ""

/-- A generator that listens to nothing and does what it has to do. -/
def idler (label : String) : Generator := ⟨label, "0.1.0", "", [], none⟩

/-- Nor is a generator that has subscribed before one that cannot. -/
example :
    (execute (hosting [("a", idler "a"), ("b", { idler "b" with failsAt := some .subscribe })])
      ⟨[], .new⟩ [] (.parse "-" none false true)).1.journal = [("a", "init"), ("b", "init")] := by
  decide +kernel

end ApiGraph.CommandLine
