import Backlog.Activity.Event
import Backlog.Monitor

/-!
# Transitions between rounds

The activity log does not tell every result, only what changed: the health of the whole,
the queues that began or ceased to grow, and the queues that are left out for a new
reason.
-/

namespace Backlog

/-- What was last told. -/
structure Transitions where
  /-- The health, if any was told. -/
  lastHealthy : Option Bool
  /-- The queues that were told to grow. -/
  growing : Table Unit
  /-- The reasons for leaving out queues in the round before. -/
  lastSkipped : Table String

namespace Transitions

/-- Nothing was told yet. -/
def start : Transitions := ⟨none, .empty, .empty⟩

/-- The event about the health, if it changed. -/
def healthEvents (t : Transitions) (r : MonitorResult Float) : List Event :=
  if t.lastHealthy = some r.healthy then [] else [.healthChanged r.healthy r.message]

/-- The event about a queue, if it began or ceased to grow; and the growing queues then. -/
def growthStep (threshold : Float) (told : List Event × Table Unit)
    (entry : String × QueueDetail Float) : List Event × Table Unit :=
  let (events, growing) := told
  let (queue, detail) := entry
  let isGrowing := Scalar.lt threshold detail.slopePercent
  if isGrowing && !growing.contains queue then
    (events ++ [.growthDetected queue detail], growing.insert queue ())
  else if !isGrowing && growing.contains queue then
    (events ++ [.recovered queue detail], growing.erase queue)
  else (events, growing)

/-- The events about growing queues, and the growing queues afterwards.  While the check is
not active, no queue counts as growing. -/
def growthEvents (threshold : Float) (t : Transitions) (r : MonitorResult Float) :
    List Event × Table Unit :=
  if r.active then r.details.entries.foldl (growthStep threshold) ([], t.growing)
  else ([], .empty)

/-- The events about queues that are left out for a new reason. -/
def skipEvents (t : Transitions) (r : MonitorResult Float) : List Event :=
  r.skipped.entries.filterMap fun (queue, reason) =>
    if t.lastSkipped.find? queue = some reason then none else some (.skipped queue reason)

/-- All events of a round, and what was told afterwards. -/
def step (threshold : Float) (t : Transitions) (r : MonitorResult Float) :
    List Event × Transitions :=
  let (growth, growing) := t.growthEvents threshold r
  (t.healthEvents r ++ growth ++ t.skipEvents r, ⟨some r.healthy, growing, r.skipped⟩)

end Transitions

end Backlog
