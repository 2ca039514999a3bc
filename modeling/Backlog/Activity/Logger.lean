import Backlog.Activity.Event
import Backlog.Activity.Writer

/-!
# The logger

Events wait in a mailbox until the logger enters them in the activity log, one line each.
A mailbox that is full loses events; how many is entered before the next event.  After the
event that closes the log, nothing is entered any more.
-/

namespace Backlog

/-- Events on their way to the log. -/
structure Mailbox where
  capacity : Nat
  waiting : List Event
  /-- Events lost since the last report of lost events. -/
  dropped : Nat

namespace Mailbox

/-- A mailbox without events. -/
def empty (capacity : Nat) : Mailbox := ⟨max capacity 1, [], 0⟩

/-- The usual room for events. -/
def usualCapacity : Nat := 1024

/-- Leave an event; it is lost if there is no room. -/
def send (b : Mailbox) (event : Event) : Mailbox :=
  if b.waiting.length < b.capacity then { b with waiting := b.waiting ++ [event] }
  else { b with dropped := b.dropped + 1 }

/-- Leave the closing event, for which room is always made. -/
def close (b : Mailbox) : Mailbox := { b with waiting := b.waiting ++ [.shutdown] }

end Mailbox

/-- A logger: its writer, and whether the log was closed. -/
structure Logger (F : Type) where
  writer : LogWriter F
  isClosed : Bool

namespace Logger

variable {m : Type → Type} [Monad m] [Host m]

/-- Open the log. -/
def start (settings : LogSettings) : m (Logger (Host.File m)) := do
  return ⟨← LogWriter.start settings, false⟩

/-- Write an entry stamped with the present time. -/
def enter (w : LogWriter (Host.File m)) (entry : String → LogEntry) :
    m (LogWriter (Host.File m)) := do
  let now ← Host.now
  w.writeEntry (entry (Calendar.stampText now))

/-- The entry about lost events. -/
def lossEntry (lost : Nat) (stamp : String) : LogEntry :=
  { LogEntry.plain stamp .error .warning with
    details := some (toString lost ++ " log events dropped due to back-pressure") }

/-- Report lost events, if there are any. -/
def report (w : LogWriter (Host.File m)) (lost : Nat) : m (LogWriter (Host.File m)) :=
  if lost = 0 then pure w else enter w (lossEntry lost)

/-- Close the log: what waits is written and stored safely. -/
def finish (l : Logger (Host.File m)) : m (Logger (Host.File m)) := do
  if l.isClosed then return l
  else
    let writer ← l.writer.sync
    LogWriter.close writer.sink
    return ⟨writer, true⟩

/-- Enter an event, after a report of the events lost before it. -/
def handle (l : Logger (Host.File m)) (lost : Nat) (event : Event) :
    m (Logger (Host.File m)) := do
  if l.isClosed then return l
  else
    let writer ← report l.writer lost
    match event with
    | .shutdown => finish ⟨writer, false⟩
    | event =>
      let writer ← enter writer (fun stamp => event.entry stamp)
      let writer ← writer.flush
      return ⟨← writer.tryRecover, false⟩

/-- Enter events one after the other. -/
def handleAll (l : Logger (Host.File m)) (lost : Nat) : List Event → m (Logger (Host.File m))
  | [] => pure l
  | event :: rest => do
    let l ← l.handle lost event
    handleAll l 0 rest

/-- Empty a mailbox into the log. -/
def drain (l : Logger (Host.File m)) (b : Mailbox) : m (Logger (Host.File m) × Mailbox) := do
  let l ← l.handleAll b.dropped b.waiting
  let dropped := if b.waiting.isEmpty then b.dropped else 0
  return (l, { b with waiting := [], dropped })

/-- Log some events from opening the log to closing it. -/
def run (settings : LogSettings) (events : List Event) : m (Logger (Host.File m)) := do
  let l ← start settings
  let l ← l.handleAll 0 events
  l.finish

end Logger

end Backlog
