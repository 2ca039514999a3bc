import Backlog.Source
import Backlog.Table
import Backlog.Trend

/-!
# The growth monitor

The monitor watches any number of queues.  A round takes one reading per queue,
records the samples and publishes a result: unhealthy exactly if the check is active
and a queue with a new sample is growing.  A queue whose source failed, or whose
sample came too late, is left out of the round with a reason and keeps its trend.

Switching the check on or off does not touch the trends; a round without an active
check still records its samples.
-/

namespace Backlog

/-- Whether growth counts as unhealthy. -/
inductive MonitorStatus where
  | active
  | deactivated
  deriving DecidableEq, Repr, Inhabited

/-- The name of a status. -/
def MonitorStatus.name : MonitorStatus → String
  | .active => "active"
  | .deactivated => "deactivated"

/-- What a result says about a queue. -/
structure QueueDetail (α : Type) where
  lastRaw : Int64
  lastSmoothed : α
  /-- The slope as it is compared with the threshold. -/
  slopePercent : α
  deriving DecidableEq, Repr

/-- The result of a round. -/
structure MonitorResult (α : Type) where
  healthy : Bool
  message : String
  /-- The queues with a new sample. -/
  details : Table (QueueDetail α)
  /-- Whether the check was active in the round. -/
  active : Bool
  /-- The queues left out, each with a reason. -/
  skipped : Table String

/-- The detail that a snapshot gives. -/
def QueueSnapshot.detail {α : Type} (s : QueueSnapshot α) : QueueDetail α :=
  ⟨s.lastRaw, s.lastSmoothed, s.currentSlope⟩

namespace MonitorResult

variable {α : Type} [Scalar α]

/-- The result before the first round. -/
def pending (active : Bool) : MonitorResult α :=
  ⟨true, "no check has run yet", .empty, active, .empty⟩

/-- The queues whose slope is above a threshold, in order. -/
def growingQueues (r : MonitorResult α) (threshold : α) : List String :=
  (r.details.entries.filter fun e => Scalar.lt threshold e.2.slopePercent).map (·.1)

end MonitorResult

/-- A round in progress. -/
structure Round (α : Type) where
  /-- All trends known so far. -/
  queues : Table (QueueTrend α)
  /-- The queues with a new sample, and whether they grow, in the order of the readings. -/
  recorded : List (QueueSnapshot α × Bool)
  skipped : Table String

namespace Round

variable {α : Type} [Scalar α]

/-- Leave a queue out of the round. -/
def skip (r : Round α) (queue reason : String) : Round α :=
  { r with skipped := r.skipped.insert queue reason }

/-- The trend of a queue, a new one if the queue was not seen before. -/
def trend (settings : MonitorSettings α) (r : Round α) (queue : String) :
    Except SettingFault (QueueTrend α) :=
  match r.queues.find? queue with
  | some trend => .ok trend
  | none => QueueTrend.ofSettings queue settings

/-- Record a sample of a queue. -/
def record (r : Round α) (queue : String) (trend : QueueTrend α) (sample : Sample) : Round α :=
  let (outcome, trend) := trend.record sample.timestamp sample.ready
  let r := { r with queues := r.queues.insert queue trend }
  match outcome with
  | .accepted => { r with recorded := r.recorded ++ [(trend.snapshot, trend.isGrowing)] }
  | .outOfOrder previous received =>
    r.skip queue
      ("timestamp " ++ decimalText received.toInt ++ " precedes previous sample "
        ++ decimalText previous.toInt)

/-- Take in a reading. -/
def take (settings : MonitorSettings α) (r : Round α) (reading : Reading) : Round α :=
  match reading.outcome with
  | .error fault => r.skip reading.queue fault.reason
  | .ok sample =>
    match r.trend settings reading.queue with
    | .error cause => r.skip reading.queue (Fault.invalidConfig cause).message
    | .ok trend => r.record reading.queue trend sample

/-- The queues with a new sample that grow, in the order of their ids. -/
def growing (r : Round α) : List (QueueSnapshot α) :=
  ((r.recorded.filter (·.2)).map (·.1)).mergeSort fun a b => decide (a.queue ≤ b.queue)

/-- How a growing queue is named in a message. -/
def mention (s : QueueSnapshot α) : String :=
  s.queue ++ " (slope " ++ Scalar.twoPlaces s.currentSlope ++ ")"

/-- What the result of the round says in words. -/
def message (active : Bool) (growing : List (QueueSnapshot α)) : String :=
  if !active then "queue growth check deactivated"
  else if growing.isEmpty then "no queue growth detected"
  else "growing queues: " ++ ", ".intercalate (growing.map mention)

/-- The result of the round. -/
def result (active : Bool) (r : Round α) : MonitorResult α where
  healthy := !active || r.growing.isEmpty
  message := message active r.growing
  details := .ofList (r.recorded.map fun (s, _) => (s.queue, s.detail))
  active
  skipped := r.skipped

end Round

/-- A monitor between two rounds. -/
structure Monitor (α : Type) where
  active : Bool
  settings : MonitorSettings α
  queues : Table (QueueTrend α)
  /-- The result of the last round. -/
  latest : MonitorResult α

namespace Monitor

variable {α : Type} [Scalar α]

/-- The id under which settings are tried out. -/
def probeId : String := "config-check"

/-- Settings with which every queue can be followed. -/
def accepts (settings : MonitorSettings α) : Except SettingFault Unit := do
  let _ ← QueueTrend.ofSettings probeId settings

/-- A monitor that has seen no queue. -/
def start (settings : MonitorSettings α) : Except SettingFault (Monitor α) := do
  accepts settings
  return ⟨settings.startActive, settings, .empty, .pending settings.startActive⟩

/-- Let growth count as unhealthy from the next round on. -/
def activate (m : Monitor α) : Monitor α := { m with active := true }

/-- Let growth not count from the next round on. -/
def deactivate (m : Monitor α) : Monitor α := { m with active := false }

/-- Whether the check is active. -/
def status (m : Monitor α) : MonitorStatus := if m.active then .active else .deactivated

/-- The trends after the readings of a round. -/
def round (m : Monitor α) (readings : List Reading) : Round α :=
  readings.foldl (Round.take m.settings) ⟨m.queues, [], .empty⟩

/-- Run a round and publish its result. -/
def check (m : Monitor α) (readings : List Reading) : Monitor α :=
  let round := m.round readings
  { m with queues := round.queues, latest := round.result m.active }

/-- What is known about a queue. -/
def snapshot? (m : Monitor α) (queue : String) : Option (QueueSnapshot α) :=
  (m.queues.find? queue).map QueueTrend.snapshot

/-- The ids of all queues seen so far, in order. -/
def trackedQueues (m : Monitor α) : List String := m.queues.keys

/-- The threshold and scale in force. -/
def growthPolicy (m : Monitor α) : GrowthPolicy α := m.settings.growthPolicy

/-- Use another threshold and scale for all queues, seen and not seen yet. -/
def setGrowthPolicy (m : Monitor α) (policy : GrowthPolicy α) :
    Except SettingFault (Monitor α) := do
  policy.validate
  return { m with
    settings := m.settings.withPolicy policy
    queues := m.queues.map (·.withPolicy policy) }

/-- Use other settings.  Threshold and scale apply to all queues at once; window and
smoothing apply to queues that are seen for the first time later. -/
def reconfigure (m : Monitor α) (settings : MonitorSettings α) :
    Except SettingFault (Monitor α) := do
  accepts settings
  return { m with
    settings
    queues := m.queues.map (·.withPolicy settings.growthPolicy) }

end Monitor

end Backlog
