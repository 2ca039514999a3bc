import Backlog.Service.Daemon

/-!
# Sessions

A session is a daemon together with the logger that empties its mailbox.  It runs rounds
until it is asked to end; the last thing it does is to close the log.
-/

namespace Backlog

/-- A daemon and its logger. -/
structure Session (m : Type → Type) [Host m] where
  daemon : Daemon m
  logger : Logger (Host.File m)

namespace Session

variable {m : Type → Type} [Monad m] [Host m]

/-- A session over some sources. -/
def start (settings : Settings) (sources : List (Source m)) :
    m (Except Fault (Session m)) := do
  match ← Daemon.start settings sources with
  | .error fault => return .error fault
  | .ok daemon =>
    let logger ← Logger.start (m := m) (.at settings.paths.jsonlLog)
    return .ok ⟨daemon, logger⟩

/-- Enter in the log what waits in the mailbox. -/
def drain (s : Session m) : m (Session m) := do
  let (logger, mailbox) ← s.logger.drain s.daemon.mailbox
  return ⟨{ s.daemon with mailbox }, logger⟩

/-- Let the daemon do something, and enter in the log what it told. -/
def step (s : Session m) (act : Daemon m → m (Daemon m)) : m (Session m) := do
  let daemon ← act s.daemon
  drain { s with daemon }

/-- Give the check the status that was asked for; says whether that changed anything. -/
def applyToggle (s : Session m) : m (Bool × Session m) := do
  let (isChanged, daemon) ← s.daemon.applyToggle
  return (isChanged, ← drain { s with daemon })

/-- Run a round and wait for the next one, unless the session is to end. -/
def round (s : Session m) : m (Bool × Session m) := do
  match ← s.daemon.prepare with
  | none => return (false, s)
  | some daemon =>
    let s ← drain { s with daemon }
    let s ← s.step Daemon.tick
    return (true, ← s.step Daemon.rest)

/-- End the session. -/
def finish (s : Session m) : m (Session m) := do
  let s ← s.step fun d => d.retire "signal"
  Daemon.say (m := m) ("stopped after " ++ toString s.daemon.ticks ++ " tick(s)")
  return s

/-- Run at most so many rounds. -/
def rounds : Nat → Session m → m (Session m)
  | 0, s => return s
  | n + 1, s => do
    match ← s.round with
    | (false, s) => return s
    | (true, s) => rounds n s

/-- Run from the announcement to the end, in at most so many rounds. -/
def run (s : Session m) (limit : Nat) : m (Session m) := do
  let s ← s.step Daemon.announce
  let s ← s.rounds limit
  s.finish

/-- Close the log of a session that is given up. -/
def close (s : Session m) : m (Session m) := do
  let s ← s.drain
  return { s with logger := ← s.logger.finish }

end Session

end Backlog
