import Backlog.Monitor
import Backlog.SampleLog

/-!
# Replaying a sample log

The records of a log are put before a monitor that has seen nothing.  Records in a row
with one time stamp form a round; in a round the last record of a queue counts.
-/

namespace Backlog

/-- A replay in figures, and the result of its last round. -/
structure ReplayReport (α : Type) where
  rounds : Nat
  samples : Nat
  unhealthyRounds : Nat
  /-- The time stamp of the first unhealthy round. -/
  firstUnhealthyAt : Option Int64
  result : MonitorResult α

namespace Replay

variable {α : Type} [Scalar α]

/-- The rounds of a log. -/
def rounds (records : List SampleRecord) : List (List SampleRecord) :=
  records.splitBy fun a b => a.timestamp == b.timestamp

/-- What a record says about its queue. -/
def readingOf (r : SampleRecord) : Reading :=
  match r.ready with
  | some ready => ((FixedSource.unset r.queue).set r.timestamp ready).read
  | none => (FixedSource.unset r.queue).read

/-- The readings of a round, in the order of the queues. -/
def readings (round : List SampleRecord) : List Reading :=
  (Table.ofList (round.map fun r => (r.queue, r))).entries.map fun e => readingOf e.2

/-- A replay under way: the monitor, and the figures so far. -/
structure Progress (α : Type) where
  monitor : Monitor α
  rounds : Nat
  unhealthyRounds : Nat
  firstUnhealthyAt : Option Int64

/-- Put a round before the monitor. -/
def step (p : Progress α) (round : List SampleRecord) : Progress α :=
  let monitor := p.monitor.check (readings round)
  let isUnhealthy := !monitor.latest.healthy
  { monitor
    rounds := p.rounds + 1
    unhealthyRounds := if isUnhealthy then p.unhealthyRounds + 1 else p.unhealthyRounds
    firstUnhealthyAt :=
      match p.firstUnhealthyAt with
      | some timestamp => some timestamp
      | none => if isUnhealthy then round.head?.map (·.timestamp) else none }

end Replay

/-- Replay a log; `active` says whether growth counts, whatever the settings say. -/
def replay {α : Type} [Scalar α] (settings : MonitorSettings α) (records : List SampleRecord)
    (active : Bool) : Except SettingFault (ReplayReport α) := do
  let fresh ← Monitor.start settings
  let monitor := if active then fresh.activate else fresh.deactivate
  let last := (Replay.rounds records).foldl Replay.step ⟨monitor, 0, 0, none⟩
  return {
    rounds := last.rounds
    samples := records.length
    unhealthyRounds := last.unhealthyRounds
    firstUnhealthyAt := last.firstUnhealthyAt
    result := last.monitor.latest }

end Backlog
