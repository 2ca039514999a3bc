import Backlog.Json.Bytes
import Backlog.Json.Decode

/-!
# Entries of the activity log

An entry of the activity log is a JSON object on a line of its own.  Time, kind and
severity are always there; of the other fields only those that say something.
-/

namespace Backlog

/-- How much an entry matters. -/
inductive Severity where
  | info
  | warning
  | critical
  deriving DecidableEq, Repr

namespace Severity

/-- The name of a severity. -/
def name : Severity → String
  | .info => "info"
  | .warning => "warning"
  | .critical => "critical"

/-- The severity of a name. -/
def ofName? (s : String) : Option Severity :=
  [info, warning, critical].find? fun severity => severity.name == s

end Severity

/-- What an entry is about. -/
inductive EntryKind where
  | daemonStart
  | daemonStop
  | healthChange
  | queueGrowth
  | queueRecovered
  | queueSkipped
  | monitorToggle
  | configReload
  | error
  deriving DecidableEq, Repr

namespace EntryKind

/-- The name of a kind. -/
def name : EntryKind → String
  | .daemonStart => "daemon_start"
  | .daemonStop => "daemon_stop"
  | .healthChange => "health_change"
  | .queueGrowth => "queue_growth"
  | .queueRecovered => "queue_recovered"
  | .queueSkipped => "queue_skipped"
  | .monitorToggle => "monitor_toggle"
  | .configReload => "config_reload"
  | .error => "error"

/-- All kinds. -/
def all : List EntryKind :=
  [daemonStart, daemonStop, healthChange, queueGrowth, queueRecovered, queueSkipped,
    monitorToggle, configReload, error]

/-- The kind of a name. -/
def ofName? (s : String) : Option EntryKind := all.find? fun kind => kind.name == s

end EntryKind

/-- An entry of the activity log. -/
structure LogEntry where
  /-- The time in UTC. -/
  stamp : String
  kind : EntryKind
  severity : Severity
  queue : Option String
  healthy : Option Bool
  status : Option String
  slopePercent : Option Float
  lastRaw : Option Int64
  lastSmoothed : Option Float
  errorCode : Option String
  errorMessage : Option String
  details : Option String

namespace LogEntry

/-- An entry that says no more than when, what and how much it matters. -/
def plain (stamp : String) (kind : EntryKind) (severity : Severity) : LogEntry where
  stamp
  kind
  severity
  queue := none
  healthy := none
  status := none
  slopePercent := none
  lastRaw := none
  lastSmoothed := none
  errorCode := none
  errorMessage := none
  details := none

/-- A field, unless it says nothing. -/
def member {β : Type} (name : String) (toJson : β → Json) : Option β → List (String × Json)
  | some b => [(name, toJson b)]
  | none => []

/-- An entry as JSON. -/
def toJson (e : LogEntry) : Json :=
  .object
    ([("ts", .string e.stamp), ("event", .string e.kind.name),
        ("severity", .string e.severity.name)]
      ++ member "queue" Json.string e.queue
      ++ member "healthy" Json.bool e.healthy
      ++ member "status" Json.string e.status
      ++ member "slope_percent" Json.double e.slopePercent
      ++ member "last_raw" (fun n : Int64 => Json.int n.toInt) e.lastRaw
      ++ member "last_smoothed" Json.double e.lastSmoothed
      ++ member "error_code" Json.string e.errorCode
      ++ member "error_message" Json.string e.errorMessage
      ++ member "details" Json.string e.details)

/-- The names of the fields. -/
def fieldNames : List String :=
  ["ts", "event", "severity", "queue", "healthy", "status", "slope_percent", "last_raw",
    "last_smoothed", "error_code", "error_message", "details"]

/-- The entry that a JSON value is. -/
def ofJson? (v : Json) : Option LogEntry := do
  let fields ← v.asFields fieldNames
  let stamp ← fields.required "ts" Json.asString
  let kind ← fields.required "event" (Json.asChoice EntryKind.ofName?)
  let severity ← fields.required "severity" (Json.asChoice Severity.ofName?)
  let queue ← fields.optional "queue" Json.asString
  let healthy ← fields.optional "healthy" Json.asBool
  let status ← fields.optional "status" Json.asString
  let slopePercent ← fields.optional "slope_percent" Json.asDouble
  let lastRaw ← fields.optional "last_raw" Json.asInt64
  let lastSmoothed ← fields.optional "last_smoothed" Json.asDouble
  let errorCode ← fields.optional "error_code" Json.asString
  let errorMessage ← fields.optional "error_message" Json.asString
  let details ← fields.optional "details" Json.asString
  return ⟨stamp, kind, severity, queue, healthy, status, slopePercent, lastRaw, lastSmoothed,
    errorCode, errorMessage, details⟩

/-- The entry that a row of bytes is. -/
def ofBytes? (bytes : ByteArray) : Option LogEntry := (Json.ofBytes? bytes).bind ofJson?

/-- The line of an entry, without its end. -/
def line (e : LogEntry) : String := e.toJson.compact

end LogEntry

end Backlog
