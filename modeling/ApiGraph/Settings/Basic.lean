import ApiGraph.Dict
import ApiGraph.Json.Shape

/-! Settings: how results are shown, whether snapshots are stored and for how long, and which
generators take part. Settings that mean nothing here are kept for the generators. -/

namespace ApiGraph

open Shape

/-- Whether snapshots are stored, and for how many seconds. -/
structure StoreSettings where
  enabled : Bool
  seconds : Int

/-- Which generators take part: those of the first list if there are any, and never those of the
second. -/
structure RosterSettings where
  enabled : List String
  disabled : List String

/-- All settings. -/
structure Settings where
  format : String
  store : StoreSettings
  roster : RosterSettings
  extras : Dict String Json

namespace StoreSettings

/-- Snapshots are stored for a day. -/
def default : StoreSettings := ⟨true, 86400⟩

/-- The settings that a JSON value writes. -/
def ofJson : Json → Checked StoreSettings :=
  record fun v =>
    StoreSettings.mk <$> withDefault ["enabled"] true flag v <*>
      withDefault ["ttl_seconds"] 86400 integer v

/-- The settings as JSON. -/
def toJson (s : StoreSettings) : Json :=
  .obj [("enabled", .bool s.enabled), ("ttl_seconds", .int s.seconds)]

end StoreSettings

namespace RosterSettings

/-- All generators take part. -/
def default : RosterSettings := ⟨[], []⟩

/-- The settings that a JSON value writes. -/
def ofJson : Json → Checked RosterSettings :=
  record fun v =>
    RosterSettings.mk <$> withDefault ["enabled"] [] (list text) v <*>
      withDefault ["disabled"] [] (list text) v

/-- The settings as JSON. -/
def toJson (s : RosterSettings) : Json :=
  .obj [("enabled", .arr (s.enabled.map .str)), ("disabled", .arr (s.disabled.map .str))]

/-- Whether a generator takes part. -/
def allows (s : RosterSettings) (name : String) : Bool :=
  (s.enabled.isEmpty || s.enabled.contains name) && !s.disabled.contains name

end RosterSettings

namespace Settings

/-- The settings of a run without a settings file. -/
def default : Settings := ⟨"auto", .default, .default, []⟩

/-- The keys of the settings that mean something here. -/
def keys : List String := ["output", "cache", "generators"]

/-- The format in the settings of the output. -/
def formatShape : Json → Checked String :=
  record fun v => withDefault ["format"] "auto" text v

/-- The entries of an object that mean nothing here. -/
def otherEntries : Json → Dict String Json
  | .obj entries => entries.filter fun p => !keys.contains p.1
  | _ => []

/-- The settings that a JSON value writes. -/
def ofJson : Json → Checked Settings :=
  record fun v =>
    (fun format store roster => ⟨format, store, roster, otherEntries v⟩) <$>
      withDefault ["output"] "auto" formatShape v <*>
      withDefault ["cache"] .default StoreSettings.ofJson v <*>
      withDefault ["generators"] .default RosterSettings.ofJson v

/-- The settings as JSON. -/
def toJson (s : Settings) : Json :=
  .obj ([("output", .obj [("format", .str s.format)]), ("cache", s.store.toJson),
    ("generators", s.roster.toJson)] ++ s.extras.map fun p => (p.1, p.2.finite))

/-- The settings with the store switched off. -/
def withoutStore (s : Settings) : Settings := { s with store := { s.store with enabled := false } }

end Settings

end ApiGraph
