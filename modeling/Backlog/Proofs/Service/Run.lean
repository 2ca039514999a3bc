import Backlog.Proofs.Monitor.Run
import Backlog.Proofs.Service.Acts
import Backlog.Proofs.Service.Edges

/-!
# Runs of a daemon

`Daemon.Run` is every order in which a daemon can act.  Before each act the system may be in
any state, so requests, edits of files and failures may come at any time; and others may
call the monitor between two acts.  A run carries its rounds, the latest first.  The loop of a
session stays on the runs of its daemon (`Run.session_rounds`).

One invariant is behind both main results, `Daemon.Follows`: the memory of the log is what
the rounds say, and their number is counted.  Only a round touches either.

* `Daemon.tick_tells_edges`: the events of a round are the edges of the rounds so far;
* `Daemon.views_agree`: what is written to the state file, what the monitor answers and what
  was last told about the health are the same.
-/

namespace Backlog

variable {σ : Type}

namespace Daemon

section

variable {m : Type → Type}

/-- The last round of a daemon. -/
def observation (d : Daemon m) : Observation := ⟨d.monitor.growthPolicy.threshold, d.monitor.latest⟩

/-- What a daemon knows about its rounds. -/
structure Follows (d : Daemon m) (rounds : List Observation) : Prop where
  transitions : d.transitions.Remembers rounds
  ticks : d.ticks = UInt64.ofNat rounds.length

theorem told_eq {d : Daemon m} {rounds : List Observation} (h : d.transitions.Remembers rounds) :
    d.told.mailbox = (Observation.edges rounds d.observation).foldl Mailbox.send d.mailbox ∧
      d.told.transitions.Remembers (d.observation :: rounds) := by
  obtain ⟨hevents, hremembers⟩ := h.step d.observation
  rw [← hevents]
  simp only [told, sendAll_eq]
  exact ⟨rfl, hremembers⟩

end

variable [Host (StateM σ)]

/-- The runs of a daemon, with the rounds in them.  `others` are the calls of the monitor
that come from outside the daemon. -/
inductive Run (others : MonitorCall Float → Prop) (d₀ : Daemon (StateM σ)) :
    List Observation → Daemon (StateM σ) → Prop
  | start : Run others d₀ [] d₀
  | announce {rounds : List Observation} {d : Daemon (StateM σ)} (h : Run others d₀ rounds d)
      (s : σ) : Run others d₀ rounds (d.announce s).1
  | reload {rounds : List Observation} {d : Daemon (StateM σ)} (h : Run others d₀ rounds d)
      (s : σ) : Run others d₀ rounds (d.reload s).1
  | toggle {rounds : List Observation} {d : Daemon (StateM σ)} (h : Run others d₀ rounds d)
      (s : σ) : Run others d₀ rounds (d.applyToggle s).1.2
  | tick {rounds : List Observation} {d : Daemon (StateM σ)} (h : Run others d₀ rounds d)
      (s : σ) : Run others d₀ ((d.tick s).1.observation :: rounds) (d.tick s).1
  | call {rounds : List Observation} {d : Daemon (StateM σ)} (h : Run others d₀ rounds d)
      {call : MonitorCall Float} (hcall : others call) :
      Run others d₀ rounds { d with monitor := d.monitor.after call }
  /-- The logger has taken events out of the mailbox. -/
  | collect {rounds : List Observation} {d : Daemon (StateM σ)} (h : Run others d₀ rounds d)
      (left : Mailbox) : Run others d₀ rounds { d with mailbox := left }

variable {d : Daemon (StateM σ)} {rounds : List Observation}

/-! ## What an act leaves alone -/

theorem Follows.of_start {settings : Settings} {sources : List (Source (StateM σ))} {s : σ}
    (hstart : (Daemon.start settings sources s).1 = .ok d) : d.Follows [] := by
  obtain ⟨monitor, -, rfl⟩ := start_eq_ok_iff.1 hstart
  exact ⟨Transitions.remembers_start, rfl⟩

theorem Follows.announce (h : d.Follows rounds) (s : σ) : (d.announce s).1.Follows rounds := by
  rw [announce_fst]
  exact ⟨h.transitions, h.ticks⟩

theorem Follows.reload (h : d.Follows rounds) (s : σ) : (d.reload s).1.Follows rounds := by
  have hreloaded := d.reloaded s
  generalize (d.reload s).1 = after at hreloaded ⊢
  cases hreloaded <;> exact ⟨h.transitions, h.ticks⟩

theorem Follows.toggle (h : d.Follows rounds) (s : σ) : (d.applyToggle s).1.2.Follows rounds := by
  rw [applyToggle_fst]
  cases (Requests.takeToggle (m := StateM σ) s).1 with
  | none => exact h
  | some status =>
      by_cases heq : d.monitor.status = status
      · rw [answered_of_status_eq heq]
        exact h
      · rw [answered_of_status_ne heq]
        exact ⟨h.transitions, h.ticks⟩

/-! ## Rounds -/

/-- The end of a round in terms of its first part. -/
theorem observation_tick (d : Daemon (StateM σ)) (s : σ) :
    (d.tick s).1.observation = (d.observe s).1.observation := by
  rw [tick_fst, sendAll_eq]
  rfl

/-- The first part of a round sends the edges, and all is as the round found it. -/
theorem Follows.observe (h : d.Follows rounds) (s : σ) :
    let now := (d.observe s).1.observation
    (d.observe s).1.mailbox = (Observation.edges rounds now).foldl Mailbox.send d.mailbox ∧
      (d.observe s).1.Follows (now :: rounds) := by
  rw [observe_fst]
  generalize hchecked : { d with
    monitor := d.monitor.check (d.readings s), ticks := d.ticks + 1 } = checked
  have hremembers : checked.transitions.Remembers rounds := hchecked ▸ h.transitions
  have hticks : checked.ticks = UInt64.ofNat (rounds.length + 1) := by
    rw [← hchecked, UInt64.ofNat_add, ← h.ticks]
    rfl
  have hobservation : checked.told.observation = checked.observation := by
    simp only [told, sendAll_eq]
    rfl
  obtain ⟨hmailbox, hafter⟩ := told_eq hremembers
  rw [hobservation]
  refine ⟨?_, hafter, ?_⟩
  · rw [hmailbox, ← hchecked]
  · rw [List.length_cons, ← hticks]
    simp only [told, sendAll_eq]

theorem Follows.tick (h : d.Follows rounds) (s : σ) :
    (d.tick s).1.Follows ((d.tick s).1.observation :: rounds) := by
  have hobserve := (h.observe s).2
  rw [observation_tick, tick_fst, sendAll_eq]
  exact ⟨hobserve.transitions, hobserve.ticks⟩

theorem Follows.run {others : MonitorCall Float → Prop} {d₀ : Daemon (StateM σ)}
    (hbegin : d₀.Follows []) (hrun : Run others d₀ rounds d) : d.Follows rounds := by
  induction hrun with
  | start => exact hbegin
  | announce _ s ih => exact ih.announce s
  | reload _ s ih => exact ih.reload s
  | toggle _ s ih => exact ih.toggle s
  | tick _ s ih => exact ih.tick s
  | call _ _ ih => exact ⟨ih.transitions, ih.ticks⟩
  | collect _ _ ih => exact ⟨ih.transitions, ih.ticks⟩

/-- A round sends the edges, and after them the report of a failed write if there is one. -/
theorem Follows.tick_mailbox (h : d.Follows rounds) (s : σ) :
    ∃ outcome : Except Fault Unit, (d.tick s).1.mailbox =
      (Observation.edges rounds (d.tick s).1.observation ++ writeFaults outcome).foldl
        Mailbox.send d.mailbox := by
  refine ⟨((d.observe s).1.publish (d.observe s).2).1.2, ?_⟩
  rw [observation_tick, tick_fst, sendAll_eq, List.foldl_append, ← (h.observe s).1]

/-- **The activity log is an edge detector.**  In every run, a round sends the edges of the
rounds so far in their order, and then at most the report that the state file could not be
written; with room in the mailbox all of it arrives.  Since the last round without an active
check, the events of growth and recovery of each queue take turns, beginning with growth. -/
theorem tick_tells_edges {others : MonitorCall Float → Prop} {settings : Settings}
    {sources : List (Source (StateM σ))} {s₀ : σ} {d₀ : Daemon (StateM σ)}
    (hstart : (Daemon.start settings sources s₀).1 = .ok d₀) (hrun : Run others d₀ rounds d)
    (s : σ) :
    let now := (d.tick s).1.observation
    (∃ outcome : Except Fault Unit,
      let events := Observation.edges rounds now ++ writeFaults outcome
      (d.tick s).1.mailbox = events.foldl Mailbox.send d.mailbox ∧
        (d.mailbox.waiting.length + events.length ≤ d.mailbox.capacity →
          (d.tick s).1.mailbox.waiting = d.mailbox.waiting ++ events)) ∧
      ∀ later earlier, now :: rounds = later ++ earlier →
        (∀ o ∈ later, o.result.active = true) →
        (∀ o ∈ earlier.head?, o.result.active = false) →
        ∀ queue, Alternates true false
          ((Observation.edgesAfter earlier later).filterMap (Event.growth? queue)) := by
  intro now
  have hfollows : d.Follows rounds := (Follows.of_start hstart).run hrun
  constructor
  · obtain ⟨outcome, hmailbox⟩ := hfollows.tick_mailbox s
    refine ⟨outcome, hmailbox, fun hroom => ?_⟩
    rw [hmailbox, Mailbox.foldl_send_of_room hroom]
  · intro later earlier _ hactive hinactive queue
    exact (Observation.alternate queue (Observation.isGrowing_of_inactive hinactive) hactive).1

/-! ## The loop -/

section

variable {others : MonitorCall Float → Prop} {d₀ : Daemon (StateM σ)}

theorem Run.prepare (h : Run others d₀ rounds d) {s : σ} {after : Daemon (StateM σ)}
    (hafter : (d.prepare s).1 = some after) : Run others d₀ rounds after := by
  revert hafter
  simp only [Daemon.prepare, StateM.bind_apply]
  cases (Requests.shouldShutdown (m := StateM σ) s).1 with
  | true => exact nofun
  | false =>
      simp only [Bool.false_eq_true, if_false, StateM.bind_apply]
      cases (Requests.takeReload (m := StateM σ)
        (Requests.shouldShutdown (m := StateM σ) s).2).1 with
      | true =>
          intro hafter
          exact Option.some.inj hafter ▸ (h.reload _).toggle _
      | false =>
          intro hafter
          exact Option.some.inj hafter ▸ h.toggle _

theorem Run.restUntil (h : Run others d₀ rounds d) (deadline slices : Nat) (s : σ) :
    Run others d₀ rounds (d.restUntil deadline slices s).1 := by
  induction slices generalizing d s with
  | zero => exact h
  | succ slices ih =>
      simp only [Daemon.restUntil, StateM.bind_apply]
      cases (Requests.shouldShutdown (m := StateM σ) s).1 with
      | true => exact h
      | false =>
          simp only [Bool.false_eq_true, if_false, StateM.bind_apply]
          split
          · exact h.toggle _
          · exact ih (h.toggle _) _

theorem Run.rest (h : Run others d₀ rounds d) (s : σ) : Run others d₀ rounds (d.rest s).1 :=
  h.restUntil _ _ _

theorem Run.drain (h : Run others d₀ rounds d) (logger : Logger (Host.File (StateM σ))) (s : σ) :
    Run others d₀ rounds (Session.drain ⟨d, logger⟩ s).1.daemon :=
  h.collect (logger.drain d.mailbox s).1.2

/-- Whatever a session does in a turn of its loop, its daemon stays on a run. -/
theorem Run.session_round {session : Session (StateM σ)}
    (h : Run others d₀ rounds session.daemon) (s : σ) :
    ∃ later, Run others d₀ (later ++ rounds) (session.round s).1.2.daemon := by
  have hprepare : ∀ after, (session.daemon.prepare s).1 = some after → Run others d₀ rounds after :=
    fun _ => h.prepare
  rw [Session.round, StateM.bind_apply]
  generalize session.daemon.prepare s = prepared at hprepare ⊢
  obtain ⟨after, s⟩ := prepared
  cases after with
  | none => exact ⟨[], h⟩
  | some after =>
      have hafter := (hprepare after rfl).drain session.logger s
      simp only [StateM.bind_apply, StateM.pure_apply]
      generalize Session.drain ⟨after, session.logger⟩ s = drained at hafter ⊢
      obtain ⟨drained, s⟩ := drained
      have hticked : Run others d₀ _ (drained.step Daemon.tick s).1.daemon :=
        (hafter.tick s).drain drained.logger _
      generalize drained.step Daemon.tick s = ticked at hticked ⊢
      obtain ⟨ticked, s⟩ := ticked
      have hrested : Run others d₀ _ (ticked.step Daemon.rest s).1.daemon :=
        (hticked.rest s).drain ticked.logger _
      exact ⟨[_], hrested⟩

/-- So every daemon that a session comes to is on a run. -/
theorem Run.session_rounds {session : Session (StateM σ)}
    (h : Run others d₀ rounds session.daemon) (limit : Nat) (s : σ) :
    ∃ later, Run others d₀ (later ++ rounds) (session.rounds limit s).1.daemon := by
  induction limit generalizing session rounds s with
  | zero => exact ⟨[], h⟩
  | succ limit ih =>
      obtain ⟨later, hround⟩ := h.session_round s
      rw [Session.rounds, StateM.bind_apply]
      generalize session.round s = turned at hround ⊢
      obtain ⟨⟨goesOn, after⟩, s⟩ := turned
      cases goesOn with
      | false => exact ⟨later, hround⟩
      | true =>
          obtain ⟨more, hrounds⟩ := ih hround s
          exact ⟨more ++ later, by rwa [List.append_assoc]⟩

end

/-! ## A system to run on -/

/-- A system on which everything works and nothing is ever asked of a daemon.  Its state is
its clock. -/
instance clockwork : Host (StateM Nat) where
  File := Unit
  env _ := return none
  now := return ⟨0⟩
  uptime := get
  pid := return 1
  isThere _ := return true
  read _ := return .ok .empty
  createDirs _ := return .ok ()
  openAppend _ := return .ok ((), 0)
  openFresh _ := return .ok ()
  write _ bytes := return ⟨bytes.size, none⟩
  sync _ := return .ok ()
  rename _ _ := return .ok ()
  remove _ := return .ok ()
  printError _ := return true
  isRaised _ := return false
  takeSignal _ := return false
  kill _ _ := return .ok ()
  sleep millis := modify (· + millis)

/-- A source whose backlog rises with the clock. -/
def risingSource (queue : String) : Source (StateM Nat) where
  queue := queue
  sample := do
    let uptime ← Host.uptime
    return .ok ⟨Int64.ofNat uptime, Int64.ofNat (9 * uptime)⟩

/-- The usual settings with an active check over two samples. -/
def briskSession : Settings := { Settings.standard "/" with monitor := briskSettings }

/-- A daemon that watches a rising backlog. -/
def watchful : Daemon (StateM Nat) :=
  fresh briskSession ⟨true, briskSettings, .empty, .pending true⟩ [risingSource "orders"] ⟨0⟩ 0

theorem start_watchful :
    (Daemon.start briskSession [risingSource "orders"] (0 : Nat)).1 = .ok watchful :=
  start_eq_ok_iff.2
    ⟨_, Monitor.start_eq_ok_iff.2 ⟨briskSettings_isAccepted, rfl⟩, rfl⟩

/-- The second of two rounds tells that the queue grows, and that is its first event. -/
theorem tick_tells_edges_of_growth :
    ∃ d : Daemon (StateM Nat), Run (fun _ => False) watchful [d.observation] d ∧
      let told :=
        (Observation.edgesAfter [] [(d.tick (2 : Nat)).1.observation, d.observation]).filterMap
          (Event.growth? "orders")
      Alternates true false told ∧ told = [true] := by
  have hrun : Run (fun _ => False) watchful
      [(watchful.tick (1 : Nat)).1.observation] (watchful.tick (1 : Nat)).1 := .tick .start 1
  obtain ⟨-, hturns⟩ := tick_tells_edges start_watchful hrun 2
  exact ⟨_, hrun, hturns _ [] rfl (by decide +kernel) (by decide) "orders", by decide +kernel⟩

/-! ## Three views of one round -/

/-- What is written to the state file in a round, what the monitor answers afterwards and
what was last told about the health are the same; the round is counted, and the status that
is written is the one that the check had. -/
theorem views_agree {others : MonitorCall Float → Prop} {settings : Settings}
    {sources : List (Source (StateM σ))} {s₀ : σ} {d₀ : Daemon (StateM σ)}
    (hstart : (Daemon.start settings sources s₀).1 = .ok d₀) (hrun : Run others d₀ rounds d)
    (s : σ) {state : HealthState}
    (hwritten : ((d.observe >>= publish) s).1 = (state, .ok ())) :
    let after := (d.tick s).1
    state.result = after.monitor.latest ∧
      (state.status = .active ↔ state.result.active = true) ∧
      state.ticks = UInt64.ofNat (rounds.length + 1) ∧
      after.mailbox =
        (Observation.edges rounds after.observation).foldl Mailbox.send d.mailbox ∧
      ((Observation.edgesAfter [] (after.observation :: rounds)).filterMap
        Event.health?).getLast? = some state.result.healthy := by
  intro after
  have hfollows : d.Follows rounds := (Follows.of_start hstart).run hrun
  obtain ⟨hmailbox, hobserved⟩ := hfollows.observe s
  rw [StateM.bind_apply] at hwritten
  -- the write succeeded, so the round ends as its first part left it
  have hafter : after = (d.observe s).1 := by
    change (d.tick s).1 = _
    rw [tick_fst, hwritten]
    rfl
  have hstate : ∃ pid now, state = (d.observe s).1.state pid now :=
    ⟨_, _, congrArg Prod.fst hwritten.symm⟩
  obtain ⟨pid, now, rfl⟩ := hstate
  rw [hafter]
  refine ⟨rfl, ?_, hobserved.ticks, hmailbox, Observation.health_edgesAfter _⟩
  rw [observe_fst]
  simp only [told, sendAll_eq, Daemon.state, Monitor.status, Monitor.check, Round.result]
  cases d.monitor.active <;> decide

/-- In the second of two rounds the growth of a queue is written, answered and told. -/
theorem views_agree_on_growth :
    ∃ (d : Daemon (StateM Nat)) (state : HealthState),
      ((d.observe >>= publish) (2 : Nat)).1 = (state, .ok ()) ∧ state.result.healthy = false ∧
        state.ticks = 2 ∧ state.result = (d.tick (2 : Nat)).1.monitor.latest := by
  have hrun : Run (fun _ => False) watchful
      [(watchful.tick (1 : Nat)).1.observation] (watchful.tick (1 : Nat)).1 := .tick .start 1
  have hwritten : (((watchful.tick (1 : Nat)).1.observe >>= publish) (2 : Nat)).1 =
      ((((watchful.tick (1 : Nat)).1.observe >>= publish) (2 : Nat)).1.1, .ok ()) := rfl
  obtain ⟨hresult, -, hticks, -, -⟩ := views_agree start_watchful hrun 2 hwritten
  exact ⟨_, _, hwritten, by decide +kernel, hticks, hresult⟩

end Daemon

end Backlog
