import Backlog.Activity.Logger
import Backlog.Service.HealthState
import Backlog.Service.Signals
import Backlog.Service.Transitions
import Backlog.Settings.Fingerprint
import Backlog.Settings.Load
import Backlog.Spool

/-!
# The daemon

A daemon runs a round per interval: it asks its sources, checks, tells what changed and
leaves its state in a file.  Between rounds it answers requests.  What is worth logging
goes into a mailbox, which a logger empties.
-/

namespace Backlog

/-- The version of the program. -/
def version : String := "0.1.0"

/-- A daemon between two steps. -/
structure Daemon (m : Type → Type) where
  settings : Settings
  monitor : Monitor Float
  sources : List (Source m)
  mailbox : Mailbox
  startedAt : Instant
  /-- The clock when it started. -/
  startUptime : Nat
  /-- The number of rounds so far. -/
  ticks : UInt64
  transitions : Transitions

namespace Daemon

variable {m : Type → Type} [Monad m] [Host m]

/-- The sources that the settings name. -/
def sourcesOf (s : Settings) : List (Source m) := spoolSources s.sources.queues s.sources.spoolFile

/-- A daemon that has not run a round. -/
def start (settings : Settings) (sources : List (Source m)) : m (Except Fault (Daemon m)) := do
  match Monitor.start settings.monitor with
  | .error cause => return .error (.invalidConfig cause)
  | .ok monitor =>
    let startedAt ← Host.now
    let startUptime ← Host.uptime
    return .ok {
      settings, monitor, sources, startedAt, startUptime
      mailbox := .empty Mailbox.usualCapacity
      ticks := 0
      transitions := .start }

/-- Leave an event in the mailbox. -/
def send (d : Daemon m) (event : Event) : Daemon m :=
  { d with mailbox := d.mailbox.send event }

/-- Leave events in the mailbox. -/
def sendAll (d : Daemon m) (events : List Event) : Daemon m := events.foldl send d

/-- Say something on the error stream. -/
def say (text : String) : m Unit := Host.warn ("[QGM-DAEMON] " ++ text)

/-- Tell what is about to run. -/
def announce (d : Daemon m) : m (Daemon m) := do
  let d := d.send (.daemonStarted version d.settings.fingerprint)
  say ("started: " ++ toString d.sources.length ++ " queue(s), poll every "
    ++ toString d.settings.monitor.pollIntervalMs ++ "ms, check " ++ d.monitor.status.name)
  if d.sources.isEmpty then
    say "no queues configured; every round will be empty"
  return d

/-- Tell what changed with the last round. -/
def tell (d : Daemon m) : m (Daemon m) := do
  let result := d.monitor.latest
  let threshold := d.monitor.growthPolicy.threshold
  if !(d.transitions.healthEvents result).isEmpty then say ("health: " ++ result.message)
  let (events, transitions) := d.transitions.step threshold result
  return { d.sendAll events with transitions }

/-- The state of the daemon. -/
def state (d : Daemon m) (pid : UInt32) (now : Instant) : HealthState where
  version := version
  pid := pid
  startedAt := Calendar.exactText d.startedAt
  lastUpdated := Calendar.exactText now
  status := d.monitor.status
  ticks := d.ticks
  droppedLogEvents := UInt64.ofNat d.mailbox.dropped
  result := d.monitor.latest

/-- Leave the state in its file. -/
def persist (d : Daemon m) : m (Daemon m) := do
  let pid ← Host.pid
  let now ← Host.now
  match ← HealthState.write d.settings.paths.stateFile (d.state pid now) with
  | .ok () => return d
  | .error fault =>
    say ("failed to write state file: " ++ fault.message)
    return d.send (.error fault.code fault.message)

/-- Run a round. -/
def tick (d : Daemon m) : m (Daemon m) := do
  let readings ← d.sources.mapM Source.read
  let d := { d with monitor := d.monitor.check readings, ticks := d.ticks + 1 }
  let d ← d.tell
  d.persist

/-- Give the check the status that was asked for; says whether that changed anything. -/
def applyToggle (d : Daemon m) : m (Bool × Daemon m) := do
  match ← Requests.takeToggle with
  | none => return (false, d)
  | some status =>
    if d.monitor.status = status then return (false, d)
    else
      let monitor :=
        match status with
        | .active => d.monitor.activate
        | .deactivated => d.monitor.deactivate
      say ("growth check " ++ status.name)
      return (true, { d with monitor }.send (.toggled status.name))

/-- Whether two settings name the same sources. -/
def hasSameSources (a b : SourceSettings) : Bool :=
  Path.isSame a.spoolFile b.spoolFile && a.queues == b.queues

/-- What is told about settings that were adopted. -/
def reloadDetails (s : Settings) : String :=
  "config_hash=" ++ s.fingerprint ++ " queues=" ++ toString s.sources.queues.length
    ++ " threshold=" ++ Scalar.text s.monitor.growthThreshold
    ++ " scale=" ++ Scalar.text s.monitor.slopeScale

/-- Adopt other settings.  Whether the check is active stays as it is. -/
def adopt (d : Daemon m) (settings : Settings) (monitor : Monitor Float) : m (Daemon m) := do
  let sources :=
    if hasSameSources settings.sources d.settings.sources then d.sources
    else sourcesOf settings
  say ("config reloaded: " ++ reloadDetails settings)
  return { d with monitor, sources, settings }.send (.configReloaded (reloadDetails settings))

/-- Load the settings again, and adopt them if they changed.  Settings that cannot be
loaded change nothing. -/
def reload (d : Daemon m) : m (Daemon m) := do
  say "config reload requested (SIGHUP)"
  match ← Settings.load (some d.settings.paths.configFile) with
  | .error fault =>
    say ("config reload failed: " ++ fault.message)
    return d.send (.error fault.code ("config reload failed: " ++ fault.message))
  | .ok settings =>
    if settings.fingerprint = d.settings.fingerprint then
      say "config unchanged, skipping reload"
      return d
    else
      match d.monitor.reconfigure settings.monitor with
      | .error cause =>
        let fault := Fault.invalidConfig cause
        say ("rejected reloaded monitor settings: " ++ fault.message)
        return d.send
          (.error fault.code ("rejected reloaded monitor settings: " ++ fault.message))
      | .ok monitor => d.adopt settings monitor

/-- What is done before a round: nothing is left to do if the daemon is to end, else
requests are answered. -/
def prepare (d : Daemon m) : m (Option (Daemon m)) := do
  if ← Requests.shouldShutdown then
    say "shutdown requested"
    return none
  else
    let d ← if ← Requests.takeReload then d.reload else pure d
    let (_, d) ← d.applyToggle
    return some d

/-- The longest time in milliseconds without a look at the requests. -/
def slice : Nat := 100

/-- Wait until a time on the clock, in at most so many slices.  Requests for the status of
the check are answered; a request to end cuts the wait short. -/
def restUntil (deadline : Nat) : Nat → Daemon m → m (Daemon m)
  | 0, d => return d
  | slices + 1, d => do
    if ← Requests.shouldShutdown then return d
    else
      let (_, d) ← d.applyToggle
      let now ← Host.uptime
      if deadline ≤ now then return d
      else
        Host.sleep (min slice (deadline - now))
        restUntil deadline slices d

/-- Wait for the next round. -/
def rest (d : Daemon m) : m (Daemon m) := do
  let now ← Host.uptime
  let interval := d.settings.monitor.pollIntervalMs
  d.restUntil (now + interval) (interval / slice + 2)

/-- Tell that the daemon ends, and take its state away. -/
def retire (d : Daemon m) (reason : String) : m (Daemon m) := do
  let now ← Host.uptime
  let d := d.send (.daemonStopped reason ((now - d.startUptime) / 1000))
  match ← HealthState.clear d.settings.paths.stateFile with
  | .ok () => pure ()
  | .error fault => say ("failed to remove state file: " ++ fault.message)
  return { d with mailbox := d.mailbox.close }

end Daemon

end Backlog
