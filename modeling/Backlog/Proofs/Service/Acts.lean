import Backlog.Proofs.Accepted
import Backlog.Service.Session

/-!
# What one act of a daemon does

A daemon acts on a system that answers its questions.  This file takes any system with a
state `σ` and says for each act what the daemon is afterwards, whatever the system answers:

* an answer to a request for a status is `Daemon.answered`, a loading of the settings is one
  of the four cases of `Daemon.Reloaded`;
* a round is `Daemon.observe` (check, and tell what changed) followed by `Daemon.publish`
  (write the state file); a write that fails sends one event more and changes nothing else.

Nothing here depends on how much room the mailbox has: what is sent is a row of events that
are left in it one after the other.
-/

namespace Backlog

variable {σ α β : Type}

/-! ## Computations with a state -/

theorem StateM.bind_apply (x : StateM σ α) (f : α → StateM σ β) (s : σ) :
    (x >>= f) s = f (x s).1 (x s).2 := rfl

theorem StateM.exists_of_bind_apply {x : StateM σ α} {f : α → StateM σ β} {s : σ} {r : β × σ}
    (h : (x >>= f) s = r) : ∃ a s', x s = (a, s') ∧ f a s' = r :=
  ⟨(x s).1, (x s).2, rfl, h⟩

theorem StateM.pure_apply (a : α) (s : σ) : (pure a : StateM σ α) s = (a, s) := rfl

theorem exists_of_isOk {ε α : Type} {x : Except ε α} (h : x.isOk = true) : ∃ a, x = .ok a := by
  cases x with
  | error e => cases h
  | ok a => exact ⟨a, rfl⟩

theorem exists_of_toOption {ε α β : Type} {x : Except ε α} {f : α → β} {b : β}
    (h : x.toOption.map f = some b) : ∃ a, x = .ok a ∧ f a = b := by
  cases x with
  | error fault => cases h
  | ok a => exact ⟨a, rfl, Option.some.inj h⟩

theorem eq_ok_of_isOk {ε : Type} {x : Except ε Unit} (h : x.isOk = true) : x = .ok () := by
  obtain ⟨⟨⟩, hok⟩ := exists_of_isOk h
  exact hok

/-! ## Mailboxes -/

namespace Mailbox

/-- In a mailbox with room for all of them, events wait in the order of their sending. -/
theorem foldl_send_of_room {events : List Event} {b : Mailbox}
    (hroom : b.waiting.length + events.length ≤ b.capacity) :
    events.foldl send b = { b with waiting := b.waiting ++ events } := by
  induction events generalizing b with
  | nil => simp
  | cons event rest ih =>
      rw [List.length_cons] at hroom
      have hsend : b.send event = { b with waiting := b.waiting ++ [event] } := by
        rw [send, if_pos (by omega)]
      rw [List.foldl_cons, hsend,
        ih (by simp only [List.length_append, List.length_singleton]; omega)]
      simp

theorem dropped_le_foldl_send (events : List Event) (b : Mailbox) :
    b.dropped ≤ (events.foldl send b).dropped := by
  induction events generalizing b with
  | nil => exact Nat.le_refl _
  | cons event rest ih =>
      have hsend : b.dropped ≤ (b.send event).dropped := by
        unfold send
        split
        · exact Nat.le_refl _
        · exact Nat.le_succ _
      exact Nat.le_trans hsend (ih _)

/-- If nothing was lost, the events wait in the order of their sending. -/
theorem foldl_send_of_dropped_eq {events : List Event} {b : Mailbox}
    (hkept : (events.foldl send b).dropped = b.dropped) :
    events.foldl send b = { b with waiting := b.waiting ++ events } := by
  induction events generalizing b with
  | nil => simp
  | cons event rest ih =>
      rw [List.foldl_cons] at hkept ⊢
      have hle := dropped_le_foldl_send rest (b.send event)
      by_cases hroom : b.waiting.length < b.capacity
      · have hsend : b.send event = { b with waiting := b.waiting ++ [event] } := by
          rw [send, if_pos hroom]
        rw [ih (by rw [hkept, hsend]), hsend]
        simp
      · -- the first event was lost, and what is lost stays counted
        have hlost : (b.send event).dropped = b.dropped + 1 := by rw [send, if_neg hroom]
        omega

end Mailbox

namespace Daemon

variable {m : Type → Type}

theorem sendAll_eq (d : Daemon m) (events : List Event) :
    d.sendAll events = { d with mailbox := events.foldl Mailbox.send d.mailbox } := by
  induction events generalizing d with
  | nil => rfl
  | cons event rest ih => exact ih (d.send event)

/-! ## The start -/

/-- A daemon that has done nothing yet. -/
def fresh (settings : Settings) (monitor : Monitor Float) (sources : List (Source m))
    (startedAt : Instant) (startUptime : Nat) : Daemon m where
  settings := settings
  monitor := monitor
  sources := sources
  mailbox := .empty Mailbox.usualCapacity
  startedAt := startedAt
  startUptime := startUptime
  ticks := 0
  transitions := .start

theorem start_eq_ok_iff [Host (StateM σ)] {settings : Settings}
    {sources : List (Source (StateM σ))} {s : σ} {d : Daemon (StateM σ)} :
    (Daemon.start settings sources s).1 = .ok d ↔
      ∃ monitor, Monitor.start settings.monitor = .ok monitor ∧
        d = fresh settings monitor sources (Host.now (m := StateM σ) s).1
          (Host.uptime (m := StateM σ) (Host.now (m := StateM σ) s).2).1 := by
  unfold Daemon.start
  cases Monitor.start settings.monitor with
  | error cause => simp [StateM.pure_apply]
  | ok monitor =>
      simp only [StateM.bind_apply, StateM.pure_apply, Except.ok.injEq, exists_eq_left']
      exact eq_comm

theorem announce_fst [Host (StateM σ)] (d : Daemon (StateM σ)) (s : σ) :
    (d.announce s).1 = d.send (.daemonStarted version d.settings.fingerprint) := by
  simp only [announce, StateM.bind_apply]
  split <;> rfl

/-! ## Requests for a status -/

/-- The daemon after it answered a request for a status. -/
def answered (d : Daemon m) : Option MonitorStatus → Daemon m
  | none => d
  | some status =>
    if d.monitor.status = status then d
    else send { d with monitor := { d.monitor with active := status == .active } }
      (.toggled status.name)

theorem answered_of_status_eq {d : Daemon m} {status : MonitorStatus}
    (h : d.monitor.status = status) : d.answered (some status) = d := by
  rw [answered, if_pos h]

theorem answered_of_status_ne {d : Daemon m} {status : MonitorStatus}
    (h : d.monitor.status ≠ status) :
    d.answered (some status) =
      send { d with monitor := { d.monitor with active := status == .active } }
        (.toggled status.name) := by
  rw [answered, if_neg h]

/-- A request leaves the status that it asks for. -/
theorem status_answered (d : Daemon m) (request : Option MonitorStatus) :
    (d.answered request).monitor.status = request.getD d.monitor.status := by
  cases request with
  | none => rfl
  | some status =>
      by_cases h : d.monitor.status = status
      · rw [answered_of_status_eq h, h, Option.getD_some]
      · rw [answered_of_status_ne h]
        cases status <;> rfl

theorem sources_answered (d : Daemon m) (request : Option MonitorStatus) :
    (d.answered request).sources = d.sources := by
  cases request with
  | none => rfl
  | some status =>
      rw [answered]
      split <;> rfl

/-- An answer sends nothing if the status stays, and else one event with the new status. -/
theorem answered_mailbox (d : Daemon m) (request : Option MonitorStatus) :
    ∃ events : List Event, (d.answered request).mailbox = events.foldl Mailbox.send d.mailbox ∧
      (events = [] ∧ (d.answered request).monitor.status = d.monitor.status ∨
        events = [.toggled (d.answered request).monitor.status.name] ∧
          (d.answered request).monitor.status ≠ d.monitor.status) := by
  rw [status_answered]
  cases request with
  | none => exact ⟨[], rfl, .inl ⟨rfl, rfl⟩⟩
  | some status =>
      by_cases h : d.monitor.status = status
      · rw [answered_of_status_eq h]
        exact ⟨[], rfl, .inl ⟨rfl, h.symm⟩⟩
      · rw [answered_of_status_ne h]
        exact ⟨_, rfl, .inr ⟨rfl, Ne.symm h⟩⟩

variable [Host (StateM σ)]

theorem applyToggle_fst (d : Daemon (StateM σ)) (s : σ) :
    (d.applyToggle s).1.2 = d.answered (Requests.takeToggle (m := StateM σ) s).1 := by
  rw [applyToggle, StateM.bind_apply]
  generalize (Requests.takeToggle (m := StateM σ) s).1 = request
  cases request with
  | none => rfl
  | some status =>
      by_cases h : d.monitor.status = status
      · simp only [if_pos h, answered_of_status_eq h, StateM.pure_apply]
      · simp only [if_neg h, answered_of_status_ne h]
        cases status <;> rfl

/-! ## Loading the settings -/

/-- What becomes of a daemon that loads its settings again. -/
inductive Reloaded (d : Daemon (StateM σ)) : Daemon (StateM σ) → Prop
  /-- The settings cannot be loaded. -/
  | failed (fault : Fault) :
      Reloaded d (d.send (.error fault.code ("config reload failed: " ++ fault.message)))
  /-- The settings are the same as before. -/
  | unchanged : Reloaded d d
  /-- The monitor refuses its part of the settings. -/
  | rejected (fault : Fault) :
      Reloaded d
        (d.send (.error fault.code ("rejected reloaded monitor settings: " ++ fault.message)))
  | adopted {settings : Settings} {monitor : Monitor Float}
      (hreconfigure : d.monitor.reconfigure settings.monitor = .ok monitor) :
      Reloaded d (send
        { d with
          monitor
          settings
          sources :=
            if hasSameSources settings.sources d.settings.sources then d.sources
            else sourcesOf settings }
        (.configReloaded (reloadDetails settings)))

theorem reloaded (d : Daemon (StateM σ)) (s : σ) : d.Reloaded (d.reload s).1 := by
  simp only [reload, StateM.bind_apply]
  generalize Settings.load (m := StateM σ) (some d.settings.paths.configFile) _ = loaded
  obtain ⟨outcome, s⟩ := loaded
  cases outcome with
  | error fault => exact .failed fault
  | ok settings =>
      by_cases hsame : settings.fingerprint = d.settings.fingerprint
      · simp only [if_pos hsame]
        exact .unchanged
      · simp only [if_neg hsame]
        cases hreconfigure : d.monitor.reconfigure settings.monitor with
        | error cause => exact .rejected (.invalidConfig cause)
        | ok monitor => exact .adopted hreconfigure

/-! ## Rounds -/

/-- The daemon after it has told what changed with the last round. -/
def told (d : Daemon m) : Daemon m :=
  let (events, transitions) :=
    d.transitions.step d.monitor.growthPolicy.threshold d.monitor.latest
  { d.sendAll events with transitions }

theorem tell_fst (d : Daemon (StateM σ)) (s : σ) : (d.tell s).1 = d.told := by
  simp only [tell]
  split <;> rfl

/-- The first part of a round: the check, and what is told about it. -/
def observe (d : Daemon (StateM σ)) : StateM σ (Daemon (StateM σ)) := do
  let readings ← d.sources.mapM Source.read
  tell { d with monitor := d.monitor.check readings, ticks := d.ticks + 1 }

/-- The second part of a round: write the state of the daemon; says what was written and
whether that worked. -/
def publish (d : Daemon (StateM σ)) : StateM σ (HealthState × Except Fault Unit) := do
  let pid ← Host.pid
  let now ← Host.now
  let state := d.state pid now
  return (state, ← HealthState.write d.settings.paths.stateFile state)

theorem tick_eq (d : Daemon (StateM σ)) : d.tick = d.observe >>= persist := rfl

/-- The readings of a round that begins in a state. -/
def readings (d : Daemon (StateM σ)) (s : σ) : List Reading := (d.sources.mapM Source.read s).1

theorem observe_fst (d : Daemon (StateM σ)) (s : σ) :
    (d.observe s).1 =
      told { d with monitor := d.monitor.check (d.readings s), ticks := d.ticks + 1 } := by
  rw [observe, StateM.bind_apply, tell_fst]
  rfl

theorem persist_eq (d : Daemon (StateM σ)) :
    d.persist = d.publish >>= fun written =>
      match written.2 with
      | .ok () => return d
      | .error fault => do
        say ("failed to write state file: " ++ fault.message)
        return d.send (.error fault.code fault.message) := rfl

/-- The events about a write of the state file. -/
def writeFaults : Except Fault Unit → List Event
  | .ok () => []
  | .error fault => [.error fault.code fault.message]

/-- Whether or not the state file can be written, the daemon is left as it was, but for the
report of a failure. -/
theorem persist_fst (d : Daemon (StateM σ)) (s : σ) :
    (d.persist s).1 = d.sendAll (writeFaults (d.publish s).1.2) := by
  rw [persist_eq, StateM.bind_apply]
  cases (d.publish s).1.2 <;> rfl

theorem tick_fst (d : Daemon (StateM σ)) (s : σ) :
    (d.tick s).1 =
      (d.observe s).1.sendAll (writeFaults ((d.observe s).1.publish (d.observe s).2).1.2) := by
  rw [tick_eq, StateM.bind_apply, persist_fst]

/-! ## The end -/

theorem retire_fst (d : Daemon (StateM σ)) (reason : String) (s : σ) :
    (d.retire reason s).1 = { d with
      mailbox := (d.mailbox.send (.daemonStopped reason
        (((Host.uptime (m := StateM σ) s).1 - d.startUptime) / 1000))).close } := by
  simp only [retire, StateM.bind_apply]
  generalize HealthState.clear (m := StateM σ) _ _ = cleared
  obtain ⟨outcome, s⟩ := cleared
  cases outcome <;> rfl

end Daemon

end Backlog
