/-!
# Sources

A source reports the backlog of one queue.  It may fail to: some queues cannot
report a count at all, and others cannot do so right now.
-/

namespace Backlog

/-- A backlog seen at a time. -/
structure Sample where
  /-- Milliseconds. -/
  timestamp : Int64
  /-- Entries that wait to be worked on. -/
  ready : Int64
  deriving DecidableEq, Repr

/-- Why a source has no sample. -/
inductive SourceFault where
  /-- The queue does not report a count. -/
  | unsupported
  /-- The count cannot be had right now. -/
  | unavailable (details : String)
  deriving DecidableEq, Repr

namespace SourceFault

/-- The wording of a fault of the source of a queue. -/
def message (queue : String) : SourceFault → String
  | .unsupported => "queue " ++ queue ++ " does not report a ready-entry count"
  | .unavailable details => "queue " ++ queue ++ " backlog unavailable: " ++ details

/-- The fault as a reason for leaving a queue out of a round. -/
def reason : SourceFault → String
  | .unsupported => "unsupported"
  | .unavailable details => "unavailable: " ++ details

end SourceFault

/-- What the source of a queue answered. -/
structure Reading where
  queue : String
  outcome : Except SourceFault Sample

/-- A source that reports what its owner last set. -/
structure FixedSource where
  queue : String
  reading : Option Sample
  deriving DecidableEq, Repr

namespace FixedSource

/-- A source with nothing to report. -/
def unset (queue : String) : FixedSource := ⟨queue, none⟩

/-- Report this sample from now on. -/
def set (s : FixedSource) (timestamp ready : Int64) : FixedSource :=
  { s with reading := some ⟨timestamp, ready⟩ }

/-- Report nothing until a sample is set again. -/
def clear (s : FixedSource) : FixedSource := { s with reading := none }

/-- The sample that was set last. -/
def sample (s : FixedSource) : Except SourceFault Sample :=
  match s.reading with
  | some sample => .ok sample
  | none => .error .unsupported

/-- What the source answers in a round. -/
def read (s : FixedSource) : Reading := ⟨s.queue, s.sample⟩

end FixedSource

end Backlog
