import Backlog.Calendar
import Backlog.Fault
import Backlog.Host.Path
import Backlog.Monitor.Document

/-!
# The state file

A running daemon leaves its latest result in a file.  The file is written under another
name first and then renamed, so whoever reads it finds a whole document.  A document that
was not written anew for three rounds is stale: its daemon may be gone, and its process
number may be someone else's by now.
-/

namespace Backlog

/-- The state of a daemon after a round. -/
structure HealthState where
  version : String
  pid : UInt32
  startedAt : String
  lastUpdated : String
  status : MonitorStatus
  ticks : UInt64
  droppedLogEvents : UInt64
  result : MonitorResult Float

namespace HealthState

/-- A state as JSON. -/
def toJson (s : HealthState) : Json :=
  .object [("version", .string s.version), ("pid", .int s.pid.toNat),
    ("started_at", .string s.startedAt), ("last_updated", .string s.lastUpdated),
    ("status", .string s.status.name), ("ticks", .int s.ticks.toNat),
    ("dropped_log_events", .int s.droppedLogEvents.toNat), ("result", s.result.toJson)]

/-- The names of the fields. -/
def fieldNames : List String :=
  ["version", "pid", "started_at", "last_updated", "status", "ticks", "dropped_log_events",
    "result"]

/-- The state that a JSON value is. -/
def ofJson? (v : Json) : Option HealthState := do
  let fields ← v.asFields fieldNames
  let version ← fields.required "version" Json.asString
  let pid ← fields.required "pid" Json.asUInt32
  let startedAt ← fields.required "started_at" Json.asString
  let lastUpdated ← fields.required "last_updated" Json.asString
  let status ← fields.required "status" (Json.asChoice MonitorStatus.ofName?)
  let ticks ← fields.required "ticks" Json.asUInt64
  let droppedLogEvents ← fields.orElse "dropped_log_events" 0 Json.asUInt64
  let result ← fields.required "result" MonitorResult.ofJson?
  return ⟨version, pid, startedAt, lastUpdated, status, ticks, droppedLogEvents, result⟩

/-- The state that a text says. -/
def ofText? (text : String) : Option HealthState := (Json.ofText? text).bind ofJson?

/-- Seconds since the state was written, if it says when that was. -/
def ageSeconds (s : HealthState) (now : Instant) : Option Int :=
  (Calendar.moment? s.lastUpdated).map (Calendar.secondsSince now)

/-- A state that is older than so many rounds is stale. -/
def staleAfterRounds : Nat := 3

/-- The age in seconds beyond which a state is stale; never less than a second. -/
def staleLimit (pollIntervalMs : Nat) : Nat :=
  max (min (pollIntervalMs * staleAfterRounds) (twoTo 64 - 1) / 1000) 1

/-- Whether the daemon missed rounds. -/
def isStale (s : HealthState) (now : Instant) (pollIntervalMs : Nat) : Bool :=
  match s.ageSeconds now with
  | some age => decide (age > staleLimit pollIntervalMs)
  | none => false

/-- The process that signals for the daemon may be sent to.  Number zero would reach a
group of processes, and the number in a stale state may be another's. -/
def signalTarget (s : HealthState) (now : Instant) (pollIntervalMs : Nat) :
    Except Fault UInt32 :=
  if s.pid = 0 then .error (.stateUnavailable "state file records pid 0")
  else if (s.ageSeconds now).isNone || s.isStale now pollIntervalMs then
    .error (.stateUnavailable
      ("state file last updated " ++ s.lastUpdated ++ "; refusing to signal pid "
        ++ toString s.pid))
  else .ok s.pid

variable {m : Type → Type} [Monad m] [Host m]

/-- Remove a state file; none is fine too. -/
def clear (path : String) : m (Except Fault Unit) := do
  match ← Host.remove path with
  | .ok () => return .ok ()
  | .error fault =>
    if fault = .notFound then return .ok () else return .error (.io path fault.message)

/-- The path that a state is written to before it is renamed. -/
def draftPath (path : String) : String := Path.withExtension path "json.tmp"

/-- Write a text to a file and store it safely, then give the file its path. -/
def replaceFile (draft path text : String) : m (Except IoFault Unit) := do
  match ← Host.openFresh (m := m) draft with
  | .error fault => return .error fault
  | .ok file =>
    let written ← Host.write file text.toUTF8
    match written.fault with
    | some fault => return .error fault
    | none =>
      match ← Host.sync file with
      | .error fault => return .error fault
      | .ok () => Host.rename draft path

/-- Write a state file. -/
def write (path : String) (s : HealthState) : m (Except Fault Unit) := do
  let parent := (Path.parent? path).getD ""
  match ← Host.createDirs parent with
  | .error fault => return .error (.io parent fault.message)
  | .ok () =>
    match ← replaceFile (draftPath path) path s.toJson.pretty with
    | .ok () => return .ok ()
    | .error fault =>
      let _ ← Host.remove (draftPath path)
      return .error (.io path fault.message)

/-- Read a state file.  A stale one is read too, with a warning. -/
def load (path : String) (pollIntervalMs : Nat) : m (Except Fault HealthState) := do
  match ← Host.readText path with
  | .error fault =>
    return .error (.stateUnavailable ("cannot read " ++ path ++ ": " ++ fault.message))
  | .ok text =>
    match ofText? text with
    | none =>
      return .error (.stateUnavailable ("invalid state file " ++ path ++ ": " ++ Json.faultText))
    | some s =>
      let now ← Host.now
      if s.isStale now pollIntervalMs then
        Host.warn ("[QGM-STATUS] WARNING: state file is "
          ++ decimalText ((s.ageSeconds now).getD 0) ++ "s old, daemon may be stalled")
      return .ok s

end HealthState

end Backlog
