import Backlog.Activity.Entry
import Backlog.Monitor

/-!
# Events

What happens in the life of a monitor, and how each event is entered in the activity log.
-/

namespace Backlog

/-- Something worth an entry in the activity log. -/
inductive Event where
  | daemonStarted (version configHash : String)
  | daemonStopped (reason : String) (uptimeSeconds : Nat)
  | healthChanged (healthy : Bool) (message : String)
  | growthDetected (queue : String) (detail : QueueDetail Float)
  | recovered (queue : String) (detail : QueueDetail Float)
  | skipped (queue reason : String)
  | toggled (status : String)
  | configReloaded (details : String)
  | error (code message : String)
  /-- The log is to be closed. -/
  | shutdown

namespace Event

/-- An entry about the trend of a queue. -/
def queueEntry (stamp : String) (kind : EntryKind) (severity : Severity) (queue : String)
    (detail : QueueDetail Float) : LogEntry :=
  { LogEntry.plain stamp kind severity with
    queue := some queue
    slopePercent := some detail.slopePercent
    lastRaw := some detail.lastRaw
    lastSmoothed := some detail.lastSmoothed }

/-- The entry of an event. -/
def entry (stamp : String) : Event → LogEntry
  | .daemonStarted version configHash =>
    { LogEntry.plain stamp .daemonStart .info with
      details := some ("version=" ++ version ++ " config_hash=" ++ configHash) }
  | .daemonStopped reason uptimeSeconds =>
    { LogEntry.plain stamp .daemonStop .info with
      details := some ("reason=" ++ reason ++ " uptime=" ++ toString uptimeSeconds ++ "s") }
  | .healthChanged healthy message =>
    { LogEntry.plain stamp .healthChange (if healthy then .info else .critical) with
      healthy := some healthy
      details := some message }
  | .growthDetected queue detail => queueEntry stamp .queueGrowth .warning queue detail
  | .recovered queue detail => queueEntry stamp .queueRecovered .info queue detail
  | .skipped queue reason =>
    { LogEntry.plain stamp .queueSkipped .info with
      queue := some queue
      details := some reason }
  | .toggled status =>
    { LogEntry.plain stamp .monitorToggle .info with status := some status }
  | .configReloaded details =>
    { LogEntry.plain stamp .configReload .info with details := some details }
  | .error code message =>
    { LogEntry.plain stamp .error .warning with
      errorCode := some code
      errorMessage := some message }
  | .shutdown =>
    { LogEntry.plain stamp .daemonStop .info with details := some "logger shutdown" }

end Event

end Backlog
