import Backlog.Proofs.Service.Edges
import Backlog.Proofs.Service.History
import Backlog.Proofs.Service.Quiet

/-!
# A daemon among others

A `World` is a daemon somewhere in its loop on a machine.  In it the daemon takes its steps,
and between any two of them others move: a request comes in, the logger takes events out of the
mailbox, the machine changes (its files, its clock, what goes wrong next).

What a step can do is said once, in `Advanced`: a step that does not look at the requests leaves
them and the status of the check alone, and the looks are listed with what they find.
-/

namespace Backlog

open Loop

/-! ## Looks at the requests -/

/-- The status that the requests ask for. -/
def SignalFlags.asked (f : SignalFlags) : Option MonitorStatus :=
  if f.deactivate then some .deactivated else if f.activate then some .active else Option.none

theorem SignalFlags.get_set (f : SignalFlags) (value : Bool) (signal asked : Signal) :
    (f.set value signal).get asked = if signal = asked then value else f.get asked := by
  cases signal <;> cases asked <;> rfl

namespace Machine

variable {s : Machine}

theorem heard_eq_iff {flags : SignalFlags} {batches : List (List Signal)} :
    heard s = (flags, batches) ↔ s.signals = flags ∧ s.arrivals = batches := Prod.ext_iff

theorem receive_of_arrivals (h : s.arrivals = []) : s.receive = s := by
  rw [receive, h]

theorem shouldShutdown_apply (h : s.arrivals = []) :
    Requests.shouldShutdown (m := StateM Machine) s = (s.signals.shutdown, s) := by
  change (s.receive.signals.shutdown, s.receive) = _
  rw [receive_of_arrivals h]

theorem takeSignal_apply (h : s.arrivals = []) (signal : Signal) :
    Host.takeSignal (m := StateM Machine) signal s =
      (s.signals.get signal, { s with signals := s.signals.set false signal }) := by
  change (s.receive.signals.get signal,
    { s.receive with signals := s.receive.signals.set false signal }) = _
  rw [receive_of_arrivals h]

theorem takeToggle_apply (h : s.arrivals = []) :
    Requests.takeToggle (m := StateM Machine) s =
      (s.signals.asked,
        { s with signals := (s.signals.set false .activate).set false .deactivate }) := by
  rw [Requests.takeToggle, StateM.bind_apply, takeSignal_apply h, StateM.bind_apply,
    takeSignal_apply (by exact h)]
  rfl

/-- Once the requests about the check are taken, answering them leaves the signals alone. -/
theorem heard_applyToggle (d : Daemon (StateM Machine)) (s : Machine) :
    heard (d.applyToggle s).2 = heard (Requests.takeToggle (m := StateM Machine) s).2 := by
  rw [Daemon.applyToggle, StateM.bind_apply]
  cases (Requests.takeToggle (m := StateM Machine) s).1 with
  | none => rfl
  | some status =>
      dsimp only
      split
      · rfl
      · exact quiet_say _ _

theorem applyToggle_apply (d : Daemon (StateM Machine)) (h : s.arrivals = []) :
    (d.applyToggle s).1.2 = d.answered s.signals.asked ∧
      heard (d.applyToggle s).2 =
        ((s.signals.set false .activate).set false .deactivate, s.arrivals) := by
  rw [Daemon.applyToggle_fst, heard_applyToggle, takeToggle_apply h]
  exact ⟨rfl, rfl⟩

end Machine

/-! ## Acts that do not touch the status -/

/-- The name of a status that an event reports. -/
def Event.toggled? : Event → Option String
  | .toggled name => some name
  | _ => none

theorem Transitions.toggled?_step (t : Transitions) (threshold : Float)
    (r : MonitorResult Float) : (t.step threshold r).1.filterMap Event.toggled? = [] := by
  have hhealth : (t.healthEvents r).filterMap Event.toggled? = [] := by
    unfold healthEvents
    split <;> rfl
  have hgrowth : (t.growthEvents threshold r).1.filterMap Event.toggled? = [] := by
    unfold growthEvents
    split
    · rw [foldl_growthStep_events threshold r.details.ascending, List.nil_append,
        List.filterMap_filterMap, List.filterMap_eq_nil_iff]
      intro entry _
      unfold growthEvent
      cases t.growing.contains entry.1 <;> cases Scalar.lt threshold entry.2.slopePercent <;> rfl
    · rfl
  have hskip : (t.skipEvents r).filterMap Event.toggled? = [] := by
    rw [skipEvents, List.filterMap_filterMap, List.filterMap_eq_nil_iff]
    rintro ⟨queue, reason⟩ -
    dsimp only
    split <;> rfl
  change (t.healthEvents r ++ (t.growthEvents threshold r).1 ++ t.skipEvents r).filterMap _ = []
  rw [List.filterMap_append, List.filterMap_append, hhealth, hgrowth, hskip]
  rfl

namespace Daemon

open Machine

/-- What an act does to a daemon that does not touch the status of the check: it may send
events about other things, and take over sources that leave the signals alone. -/
structure Calm (d after : Daemon (StateM Machine)) : Prop where
  status : after.monitor.status = d.monitor.status
  mailbox : ∃ events : List Event, after.mailbox = events.foldl Mailbox.send d.mailbox ∧
    events.filterMap Event.toggled? = []
  sources : ∀ source ∈ after.sources, source ∈ d.sources ∨ QuietSource source

variable (d : Daemon (StateM Machine)) (s : Machine)

theorem Calm.refl : d.Calm d := ⟨rfl, ⟨[], rfl, rfl⟩, fun _ => .inl⟩

theorem Calm.send {event : Event} (h : event.toggled? = none) : d.Calm (d.send event) :=
  ⟨rfl, ⟨[event], rfl, by rw [List.filterMap_cons_none h]; rfl⟩, fun _ => .inl⟩

theorem calm_announce : d.Calm (d.announce s).1 := by
  rw [announce_fst]
  exact Calm.send d rfl

theorem calm_reload : d.Calm (d.reload s).1 := by
  have hreloaded := d.reloaded s
  generalize (d.reload s).1 = after at hreloaded ⊢
  cases hreloaded with
  | failed fault => exact Calm.send d rfl
  | unchanged => exact Calm.refl d
  | rejected fault => exact Calm.send d rfl
  | @adopted settings monitor hreconfigure =>
      obtain ⟨-, rfl⟩ := Monitor.reconfigure_eq_ok_iff.1 hreconfigure
      refine ⟨rfl, ⟨[.configReloaded (reloadDetails settings)], rfl, rfl⟩, fun source hmem => ?_⟩
      simp only [Daemon.send] at hmem
      split at hmem
      · exact .inl hmem
      · exact .inr (quietSource_sourcesOf settings source hmem)

/-- The end of a round, once its readings are there. -/
theorem calm_round (readings : List Reading) :
    d.Calm (((do
      let d ← tell { d with monitor := d.monitor.check readings, ticks := d.ticks + 1 }
      d.persist) : StateM Machine (Daemon (StateM Machine))) s).1 := by
  rw [StateM.bind_apply, persist_fst, tell_fst]
  simp only [told, sendAll_eq]
  generalize (Prod.fst (publish (σ := Machine) _ _)).2 = outcome
  refine ⟨rfl, ⟨_, List.foldl_append.symm, ?_⟩, fun _ => .inl⟩
  rw [List.filterMap_append, Transitions.toggled?_step]
  cases outcome <;> rfl

end Daemon

/-! ## Worlds -/

/-- A daemon on its way, and what came of it. -/
structure World where
  stage : Stage (StateM Machine)
  daemon : Daemon (StateM Machine)
  machine : Machine
  /-- What has happened, the latest first. -/
  history : List Moment
  /-- The events that the logger has taken out of the mailbox. -/
  collected : List Event

/-- A move in a world. -/
inductive Move where
  /-- The daemon takes its next step. -/
  | advance
  | request (signal : Signal)
  /-- The logger takes so many events. -/
  | collect (count : Nat)
  /-- The machine changes in any way but its signals. -/
  | elsewhere (machine : Machine)

namespace World

/-- The world in which a daemon begins to run. -/
def opening (daemon : Daemon (StateM Machine)) (machine : Machine) : World where
  stage := .announce
  daemon := daemon
  machine := { machine with signals := .none, arrivals := [] }
  history := []
  collected := []

/-- All events that were sent, in their order. -/
def sent (w : World) : List Event := w.collected ++ w.daemon.mailbox.waiting

/-- The daemon takes its next step. -/
def advance (w : World) : World :=
  let after := w.stage.step w.daemon w.machine
  { w with
    stage := after.1.2.1
    daemon := after.1.2.2
    machine := after.2
    history := after.1.1.toList ++ w.history }

/-- The world after a move. -/
def after (w : World) : Move → World
  | .advance => w.advance
  | .request signal =>
    { w with
      machine := { w.machine with signals := w.machine.signals.set true signal }
      history := .request signal :: w.history }
  | .collect count =>
    { w with
      daemon := { w.daemon with
        mailbox := { w.daemon.mailbox with waiting := w.daemon.mailbox.waiting.drop count } }
      collected := w.collected ++ w.daemon.mailbox.waiting.take count }
  | .elsewhere machine =>
    { w with
      machine := { machine with signals := w.machine.signals, arrivals := w.machine.arrivals } }

/-- The world after some moves. -/
def run (w : World) (moves : List Move) : World := moves.foldl after w

/-! ## Steps of the daemon -/

open Machine

/-- What a step of the daemon can do. -/
inductive Advanced (w : World) : World → Prop
  | pass {moment : Option Moment} {stage : Stage (StateM Machine)}
      {daemon : Daemon (StateM Machine)} {machine : Machine}
      (hstage : w.stage.Passes moment stage) (hdaemon : w.daemon.Calm daemon)
      (hleft : ∀ source ∈ stage.left, source ∈ w.stage.left ∨ source ∈ w.daemon.sources)
      (hheard : heard machine = heard w.machine) :
      Advanced w { w with stage, daemon, machine, history := moment.toList ++ w.history }
  | head {isEnd : Bool} {machine : Machine} (hstage : w.stage = .head)
      (hlook : w.machine.signals.shutdown = isEnd) (hheard : heard machine = heard w.machine) :
      Advanced w { w with
        stage := bif isEnd then .retire else .reload
        machine
        history := .head isEnd :: w.history }
  | reload {isAsked : Bool} {machine : Machine} (hstage : w.stage = .reload)
      (hlook : w.machine.signals.reload = isAsked)
      (hheard : heard machine = (w.machine.signals.set false .reload, w.machine.arrivals)) :
      Advanced w { w with
        stage := bif isAsked then .load else .toggle
        machine
        history := .reload isAsked :: w.history }
  | toggle {stage : Stage (StateM Machine)} {machine : Machine}
      (hstage : w.stage = .toggle ∧ stage = .tick ∨
        ∃ deadline slices, w.stage = .answer deadline slices ∧ stage = .pause deadline slices)
      (hheard : heard machine =
        ((w.machine.signals.set false .activate).set false .deactivate, w.machine.arrivals)) :
      Advanced w { w with
        stage
        daemon := w.daemon.answered w.machine.signals.asked
        machine
        history :=
          .toggle (w.daemon.answered w.machine.signals.asked).monitor.status :: w.history }
  | wait {deadline slices : Nat} {isEnd : Bool} {machine : Machine}
      (hstage : w.stage = .wait deadline (slices + 1))
      (hlook : w.machine.signals.shutdown = isEnd) (hheard : heard machine = heard w.machine) :
      Advanced w { w with
        stage := bif isEnd then .head else .answer deadline slices
        machine }
  | retire {seconds : Nat} {machine : Machine} (hstage : w.stage = .retire)
      (hheard : heard machine = heard w.machine) :
      Advanced w { w with
        stage := .done
        daemon := { w.daemon with
          mailbox := (w.daemon.mailbox.send (.daemonStopped "signal" seconds)).close }
        machine }
  | done (hstage : w.stage = .done) : Advanced w w

theorem advanced {w : World} (harrivals : w.machine.arrivals = [])
    (hleft : ∀ source ∈ w.stage.left, QuietSource source) : w.Advanced w.advance := by
  obtain ⟨stage, daemon, machine, history, collected⟩ := w
  cases stage with
  | announce =>
      exact .pass .announce (daemon.calm_announce machine) (List.forall_mem_nil _)
        (quiet_announce daemon machine)
  | head =>
      -- the step writes a line if it is the last turn, so the two answers differ in more than
      -- the stage
      have hlook := shouldShutdown_apply harrivals
      cases hraised : machine.signals.shutdown with
      | true =>
          have hadvance : advance ⟨.head, daemon, machine, history, collected⟩ =
              ⟨.retire, daemon, (Daemon.say (m := StateM Machine) "shutdown requested" machine).2,
                .head true :: history, collected⟩ := by
            rw [advance, Stage.step, StateM.bind_apply, hlook, hraised]
            rfl
          rw [hadvance]
          exact @Advanced.head _ true _ rfl hraised (quiet_say "shutdown requested" machine)
      | false =>
          have hadvance : advance ⟨.head, daemon, machine, history, collected⟩ =
              ⟨.reload, daemon, machine, .head false :: history, collected⟩ := by
            rw [advance, Stage.step, StateM.bind_apply, hlook, hraised]
            rfl
          rw [hadvance]
          exact @Advanced.head _ false _ rfl hraised rfl
  | reload =>
      have hadvance : advance ⟨.reload, daemon, machine, history, collected⟩ =
          ⟨bif machine.signals.reload then .load else .toggle, daemon,
            { machine with signals := machine.signals.set false .reload },
            .reload machine.signals.reload :: history, collected⟩ := by
        rw [advance, Stage.step, StateM.bind_apply, Requests.takeReload,
          takeSignal_apply harrivals, ← Bool.cond_eq_ite]
        rfl
      exact hadvance ▸ .reload rfl rfl rfl
  | load =>
      exact .pass .load (daemon.calm_reload machine) (List.forall_mem_nil _)
        (quiet_reload daemon machine)
  | toggle =>
      obtain ⟨hanswered, hheard⟩ := applyToggle_apply daemon harrivals
      have hadvance : advance ⟨.toggle, daemon, machine, history, collected⟩ =
          ⟨.tick, daemon.answered machine.signals.asked, (daemon.applyToggle machine).2,
            .toggle (daemon.answered machine.signals.asked).monitor.status :: history,
            collected⟩ := by
        rw [← hanswered]
        rfl
      exact hadvance ▸ .toggle (.inl ⟨rfl, rfl⟩) hheard
  | tick => exact .pass .tick (.refl daemon) (fun _ => .inr) rfl
  | sample left readings =>
      cases left with
      | nil =>
          exact .pass .check (daemon.calm_round machine readings) (List.forall_mem_nil _)
            (Quiet.bind (quiet_tell _) (fun d => quiet_persist d) machine)
      | cons source left =>
          -- the only step that runs code from outside the daemon
          have hread : heard (source.read machine).2 = heard machine :=
            (hleft source List.mem_cons_self).read machine
          exact .pass .sample (.refl daemon) (fun _ h => .inl (List.mem_cons_of_mem _ h)) hread
  | rest => exact .pass .rest (.refl daemon) (List.forall_mem_nil _) (quiet_uptime machine)
  | wait deadline slices =>
      cases slices with
      | zero => exact .pass .late (.refl daemon) (List.forall_mem_nil _) rfl
      | succ slices =>
          have hadvance :
              advance ⟨.wait deadline (slices + 1), daemon, machine, history, collected⟩ =
                ⟨bif machine.signals.shutdown then .head else .answer deadline slices, daemon,
                  machine, history, collected⟩ := by
            rw [advance, Stage.step, StateM.bind_apply, shouldShutdown_apply harrivals]
            cases machine.signals.shutdown <;> rfl
          exact hadvance ▸ .wait rfl rfl rfl
  | answer deadline slices =>
      obtain ⟨hanswered, hheard⟩ := applyToggle_apply daemon harrivals
      have hadvance : advance ⟨.answer deadline slices, daemon, machine, history, collected⟩ =
          ⟨.pause deadline slices, daemon.answered machine.signals.asked,
            (daemon.applyToggle machine).2,
            .toggle (daemon.answered machine.signals.asked).monitor.status :: history,
            collected⟩ := by
        rw [← hanswered]
        rfl
      exact hadvance ▸ .toggle (.inr ⟨deadline, slices, rfl, rfl⟩) hheard
  | pause deadline slices =>
      simp only [advance, Stage.step, StateM.bind_apply]
      split
      · exact .pass .rested (.refl daemon) (List.forall_mem_nil _) (quiet_uptime machine)
      · exact .pass .slept (.refl daemon) (List.forall_mem_nil _)
          ((quiet_sleep _ _).trans (quiet_uptime machine))
  | retire =>
      have hadvance := daemon.retire_fst "signal" machine
      have hheard := quiet_retire daemon "signal" machine
      simp only [advance, Stage.step, StateM.bind_apply, StateM.pure_apply, hadvance]
      exact .retire rfl hheard
  | done => exact .done rfl

end World

end Backlog
