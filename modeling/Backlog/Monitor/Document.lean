import Backlog.Json.Decode
import Backlog.Monitor
import Backlog.Replay

/-!
# Results as JSON

How the result of a round, and the report of a replay, are written as JSON, and how a
result is read back.
-/

namespace Backlog

namespace QueueDetail

/-- A detail as JSON. -/
def toJson (d : QueueDetail Float) : Json :=
  .object [("last_raw", .int d.lastRaw.toInt), ("last_smoothed", .double d.lastSmoothed),
    ("slope_percent", .double d.slopePercent)]

/-- The detail that a JSON value is. -/
def ofJson? (v : Json) : Option (QueueDetail Float) := do
  let fields ← v.asFields ["last_raw", "last_smoothed", "slope_percent"]
  let lastRaw ← fields.required "last_raw" Json.asInt64
  let lastSmoothed ← fields.required "last_smoothed" Json.asDouble
  let slopePercent ← fields.required "slope_percent" Json.asDouble
  return ⟨lastRaw, lastSmoothed, slopePercent⟩

end QueueDetail

namespace MonitorStatus

/-- The status of a name. -/
def ofName? (s : String) : Option MonitorStatus :=
  [active, deactivated].find? fun status => status.name == s

end MonitorStatus

namespace MonitorResult

/-- A result as JSON. -/
def toJson (r : MonitorResult Float) : Json :=
  .object [("healthy", .bool r.healthy), ("message", .string r.message),
    ("details", .object (r.details.map QueueDetail.toJson).entries),
    ("active", .bool r.active),
    ("skipped", .object (r.skipped.map Json.string).entries)]

/-- The result that a JSON value is.  Results without the status of the check and without
skipped queues are taken too. -/
def ofJson? (v : Json) : Option (MonitorResult Float) := do
  let fields ← v.asFields ["healthy", "message", "details", "active", "skipped"]
  let healthy ← fields.required "healthy" Json.asBool
  let message ← fields.required "message" Json.asString
  let details ← fields.required "details" (Json.asTable QueueDetail.ofJson?)
  let active ← fields.orElse "active" false Json.asBool
  let skipped ← fields.orElse "skipped" .empty (Json.asTable Json.asString)
  return ⟨healthy, message, details, active, skipped⟩

end MonitorResult

namespace ReplayReport

/-- A report as JSON. -/
def toJson (r : ReplayReport Float) : Json :=
  .object [("rounds", .int r.rounds), ("samples", .int r.samples),
    ("unhealthy_rounds", .int r.unhealthyRounds),
    ("first_unhealthy_at", SampleRecord.readyJson r.firstUnhealthyAt),
    ("result", r.result.toJson)]

end ReplayReport

end Backlog
