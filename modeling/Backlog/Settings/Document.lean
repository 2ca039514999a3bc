import Backlog.Json.Basic
import Backlog.Settings
import Backlog.Toml.Document
import Backlog.Toml.Quoted

/-!
# Settings as documents

Settings are read from a TOML document, in which every setting may be left out.  They are
written as TOML for people, and as JSON.
-/

namespace Backlog

namespace Toml

/-- What is said of a text that is no document of the expected form. -/
def faultText : String := "not a document of the expected form"

/-- The fields of a record: the entries of a table, or the elements of an array in order.
A date has no fields of interest. -/
def asFields (names : List String) : Toml → Option (List (String × Toml))
  | .table entries => some entries
  | .array elements => some (names.zip elements)
  | .dateTime => some []
  | _ => none

/-- A field that may be left out for a given value. -/
def fieldOr {β : Type} (fields : List (String × Toml)) (name : String) (value : β)
    (decode : Toml → Option β) : Option β :=
  match fields.lookup name with
  | some v => decode v
  | none => some value

/-- A whole number. -/
def asWhole : Toml → Option Nat
  | .integer i => if 0 ≤ i then some i.toNat else none
  | _ => none

/-- A number. -/
def asNumber : Toml → Option Float
  | .integer i => some (Binary64.ofInt i)
  | .float x => some x
  | _ => none

/-- A truth value. -/
def asBoolean : Toml → Option Bool
  | .boolean b => some b
  | _ => none

/-- A text. -/
def asString : Toml → Option String
  | .string s => some s
  | _ => none

/-- A row of texts. -/
def asStrings : Toml → Option (List String)
  | .array elements => elements.mapM asString
  | _ => none

/-- A value without content. -/
def isHollow : Toml → Bool
  | .table entries => entries.isEmpty
  | .array elements => elements.isEmpty
  | _ => false

/-- A choice between named values: the name, or a table with nothing but the name over a
value without content. -/
def asChoice {β : Type} (ofName : String → Option β) : Toml → Option β
  | .string name => ofName name
  | .table [(name, v)] => if v.isHollow then ofName name else none
  | _ => none

end Toml

namespace SmoothingSettings

/-- The names of the settings. -/
def names : List String := ["mode", "alpha", "beta", "gamma", "period"]

/-- The settings that a value says; what it leaves out is taken from `other`. -/
def ofToml (other : SmoothingSettings Float) (v : Toml) : Option (SmoothingSettings Float) := do
  let fields ← v.asFields names
  let mode ← Toml.fieldOr fields "mode" other.mode (Toml.asChoice SmoothingMode.ofName?)
  let alpha ← Toml.fieldOr fields "alpha" other.alpha Toml.asNumber
  let beta ← Toml.fieldOr fields "beta" other.beta Toml.asNumber
  let gamma ← Toml.fieldOr fields "gamma" other.gamma Toml.asNumber
  let period ← Toml.fieldOr fields "period" other.period Toml.asWhole
  return ⟨mode, alpha, beta, gamma, period⟩

/-- The settings as JSON. -/
def toJson (s : SmoothingSettings Float) : Json :=
  .object [("mode", .string s.mode.name), ("alpha", .double s.alpha), ("beta", .double s.beta),
    ("gamma", .double s.gamma), ("period", .int s.period)]

end SmoothingSettings

namespace MonitorSettings

/-- The names of the settings. -/
def names : List String :=
  ["window_size", "growth_threshold", "slope_scale", "poll_interval_ms", "start_active",
    "smoothing"]

/-- The settings that a value says; what it leaves out is taken from `other`. -/
def ofToml (other : MonitorSettings Float) (v : Toml) : Option (MonitorSettings Float) := do
  let fields ← v.asFields names
  let windowSize ← Toml.fieldOr fields "window_size" other.windowSize Toml.asWhole
  let growthThreshold ←
    Toml.fieldOr fields "growth_threshold" other.growthThreshold Toml.asNumber
  let slopeScale ← Toml.fieldOr fields "slope_scale" other.slopeScale Toml.asNumber
  let pollIntervalMs ← Toml.fieldOr fields "poll_interval_ms" other.pollIntervalMs Toml.asWhole
  let startActive ← Toml.fieldOr fields "start_active" other.startActive Toml.asBoolean
  let smoothing ←
    Toml.fieldOr fields "smoothing" other.smoothing (SmoothingSettings.ofToml .standard)
  return ⟨windowSize, growthThreshold, slopeScale, pollIntervalMs, startActive, smoothing⟩

/-- The settings as JSON. -/
def toJson (s : MonitorSettings Float) : Json :=
  .object [("window_size", .int s.windowSize), ("growth_threshold", .double s.growthThreshold),
    ("slope_scale", .double s.slopeScale), ("poll_interval_ms", .int s.pollIntervalMs),
    ("start_active", .bool s.startActive), ("smoothing", s.smoothing.toJson)]

end MonitorSettings

namespace SourceSettings

/-- The settings that a value says; what it leaves out is taken from `other`. -/
def ofToml (other : SourceSettings) (v : Toml) : Option SourceSettings := do
  let fields ← v.asFields ["spool_file", "queues"]
  let spoolFile ← Toml.fieldOr fields "spool_file" other.spoolFile Toml.asString
  let queues ← Toml.fieldOr fields "queues" other.queues Toml.asStrings
  return ⟨spoolFile, queues⟩

/-- The settings as JSON. -/
def toJson (s : SourceSettings) : Json :=
  .object [("spool_file", .string s.spoolFile), ("queues", .array (s.queues.map .string))]

end SourceSettings

namespace PathSettings

/-- The settings that a value says; what it leaves out is taken from `other`. -/
def ofToml (other : PathSettings) (v : Toml) : Option PathSettings := do
  let fields ← v.asFields ["config_file", "state_file", "jsonl_log"]
  let configFile ← Toml.fieldOr fields "config_file" other.configFile Toml.asString
  let stateFile ← Toml.fieldOr fields "state_file" other.stateFile Toml.asString
  let jsonlLog ← Toml.fieldOr fields "jsonl_log" other.jsonlLog Toml.asString
  return ⟨configFile, stateFile, jsonlLog⟩

/-- The settings as JSON. -/
def toJson (s : PathSettings) : Json :=
  .object [("config_file", .string s.configFile), ("state_file", .string s.stateFile),
    ("jsonl_log", .string s.jsonlLog)]

end PathSettings

namespace Settings

/-- The settings that a document says; what it leaves out is taken from `other`. -/
def ofToml (other : Settings) (v : Toml) : Option Settings := do
  let fields ← v.asFields ["monitor", "sources", "paths"]
  let monitor ← Toml.fieldOr fields "monitor" other.monitor (MonitorSettings.ofToml .standard)
  let sources ← Toml.fieldOr fields "sources" other.sources (SourceSettings.ofToml other.sources)
  let paths ← Toml.fieldOr fields "paths" other.paths (PathSettings.ofToml other.paths)
  return ⟨monitor, sources, paths⟩

/-- The settings that a text says; what it leaves out is taken from `other`. -/
def ofText? (other : Settings) (text : String) : Option Settings :=
  (Toml.ofText? text).bind (ofToml other)

/-- The settings as JSON. -/
def toJson (s : Settings) : Json :=
  .object [("monitor", s.monitor.toJson), ("sources", s.sources.toJson),
    ("paths", s.paths.toJson)]

/-- Numbers in a document have no exponent, and doubles always a point. -/
def layout : Layout := ⟨none, true, .up⟩

/-- A double as TOML. -/
def doubleText (x : Float) : String :=
  match Binary64.view x with
  | .nan => "nan"
  | _ => layout.text x

/-- A whole number as TOML, unless it is too large for one. -/
def wholeText (n : Nat) : Except Fault String :=
  if n < twoTo 63 then .ok (toString n)
  else .error (.serialization "toml" "number out of range")

/-- Texts as a TOML array, one to a line if there are several. -/
def stringsText (ss : List String) : String :=
  match ss with
  | [] => "[]"
  | [s] => "[" ++ Toml.stringText s ++ "]"
  | ss => "[\n" ++ String.join (ss.map fun s => "    " ++ Toml.stringText s ++ ",\n") ++ "]"

/-- A key with a value, as a line. -/
def line (name value : String) : String := name ++ " = " ++ value ++ "\n"

/-- The settings as a TOML document. -/
def toToml (s : Settings) : Except Fault String := do
  let monitor := s.monitor
  let smoothing := monitor.smoothing
  let windowSize ← wholeText monitor.windowSize
  let pollIntervalMs ← wholeText monitor.pollIntervalMs
  let period ← wholeText smoothing.period
  return "[monitor]\n"
    ++ line "window_size" windowSize
    ++ line "growth_threshold" (doubleText monitor.growthThreshold)
    ++ line "slope_scale" (doubleText monitor.slopeScale)
    ++ line "poll_interval_ms" pollIntervalMs
    ++ line "start_active" (if monitor.startActive then "true" else "false")
    ++ "\n[monitor.smoothing]\n"
    ++ line "mode" (Toml.stringText smoothing.mode.name)
    ++ line "alpha" (doubleText smoothing.alpha)
    ++ line "beta" (doubleText smoothing.beta)
    ++ line "gamma" (doubleText smoothing.gamma)
    ++ line "period" period
    ++ "\n[sources]\n"
    ++ line "spool_file" (Toml.stringText s.sources.spoolFile)
    ++ line "queues" (stringsText s.sources.queues)
    ++ "\n[paths]\n"
    ++ line "config_file" (Toml.stringText s.paths.configFile)
    ++ line "state_file" (Toml.stringText s.paths.stateFile)
    ++ line "jsonl_log" (Toml.stringText s.paths.jsonlLog)

end Settings

end Backlog
