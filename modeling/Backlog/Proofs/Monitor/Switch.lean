import Backlog.Proofs.Monitor.InForce

/-!
# The switch and the trends

A monitor is more than its trends only by its switch, by what a restart would set the switch to,
and by the verdict of its last round.  `Monitor.trends` leaves these three out.

What is left is the same after a call for monitors with the same trends
(`Monitor.trends_after_congr`), and a call that only switches leaves it as it was
(`Monitor.trends_after_unswitched`).  So a run has the trends of the run without the switches
(`Monitor.trends_run`), and two runs that differ in nothing but switches have the same trends.
-/

namespace Backlog

variable {α : Type}

namespace MonitorSettings

/-- The settings with an active start. -/
def started (s : MonitorSettings α) : MonitorSettings α := { s with startActive := true }

variable [Scalar α]

theorem accepts_started (s : MonitorSettings α) :
    Monitor.accepts s.started = Monitor.accepts s := rfl

/-- A round does not ask how the monitor was started. -/
theorem take_started (s : MonitorSettings α) : Round.take s.started = Round.take s := rfl

end MonitorSettings

/-- A call as the trends see it: a switch is no call, and how a monitor starts is not looked at. -/
def MonitorCall.unswitched : MonitorCall α → Option (MonitorCall α)
  | .activate | .deactivate => none
  | .check readings => some (.check readings)
  | .setGrowthPolicy policy => some (.setGrowthPolicy policy)
  | .reconfigure settings => some (.reconfigure settings.started)

/-- What a monitor knows, apart from its switch. -/
structure MonitorTrends (α : Type) where
  settings : MonitorSettings α
  queues : Table (QueueTrend α)
  details : Table (QueueDetail α)
  skipped : Table String

namespace Monitor

def trends (m : Monitor α) : MonitorTrends α :=
  ⟨m.settings.started, m.queues, m.latest.details, m.latest.skipped⟩

theorem trends_adopt {m m' : Monitor α} (h : m.trends = m'.trends) {s s' : MonitorSettings α}
    (hsettings : s.started = s'.started) : (m.adopt s).trends = (m'.adopt s').trends := by
  obtain ⟨-, hqueues, hdetails, hskipped⟩ := MonitorTrends.mk.inj h
  have hpolicy : s.started.growthPolicy = s'.started.growthPolicy := by rw [hsettings]
  change s.growthPolicy = s'.growthPolicy at hpolicy
  simp only [trends, adopt, hsettings, hpolicy, hqueues, hdetails, hskipped]

variable [Scalar α]

theorem trends_check {m m' : Monitor α} (h : m.trends = m'.trends) (readings : List Reading) :
    (m.check readings).trends = (m'.check readings).trends := by
  obtain ⟨hsettings, hqueues, -, -⟩ := MonitorTrends.mk.inj h
  have hround : m.round readings = m'.round readings := by
    rw [round, round, ← m.settings.take_started, ← m'.settings.take_started, hsettings, hqueues]
  simp only [trends, check, hround, hsettings]
  rfl

/-- Monitors with the same trends have the same trends after a call. -/
theorem trends_after_congr {m m' : Monitor α} (h : m.trends = m'.trends) (call : MonitorCall α) :
    (m.after call).trends = (m'.after call).trends := by
  cases call with
  | check readings => exact trends_check h readings
  | activate => exact h
  | deactivate => exact h
  | setGrowthPolicy policy =>
      rw [after_setGrowthPolicy, after_setGrowthPolicy]
      cases policy.validate with
      | ok =>
          have hsettings := congrArg MonitorTrends.settings h
          exact trends_adopt h (congrArg (·.withPolicy policy) hsettings)
      | error => exact h
  | reconfigure settings =>
      rw [after_reconfigure, after_reconfigure]
      cases accepts settings with
      | ok => exact trends_adopt h rfl
      | error => exact h

/-- To the trends a call is what `MonitorCall.unswitched` leaves of it. -/
theorem trends_after_unswitched (m : Monitor α) (call : MonitorCall α) :
    (m.after call).trends = (m.run call.unswitched.toList).trends := by
  cases call with
  | check readings => rfl
  | activate => rfl
  | deactivate => rfl
  | setGrowthPolicy policy => rfl
  | reconfigure settings =>
      show _ = (m.after (.reconfigure settings.started)).trends
      rw [after_reconfigure, after_reconfigure, settings.accepts_started]
      cases accepts settings with
      | ok => exact trends_adopt rfl rfl
      | error => rfl

theorem trends_run_congr {m m' : Monitor α} (h : m.trends = m'.trends)
    (calls : List (MonitorCall α)) : (m.run calls).trends = (m'.run calls).trends := by
  induction calls generalizing m m' with
  | nil => exact h
  | cons call rest ih => exact ih (trends_after_congr h call)

/-- A run has the trends of the run without the switches. -/
theorem trends_run (m : Monitor α) (calls : List (MonitorCall α)) :
    (m.run calls).trends = (m.run (calls.filterMap MonitorCall.unswitched)).trends := by
  induction calls generalizing m with
  | nil => rfl
  | cons call rest ih =>
      have hfilter : (call :: rest).filterMap MonitorCall.unswitched =
          call.unswitched.toList ++ rest.filterMap MonitorCall.unswitched := by
        rw [List.filterMap_cons]
        cases call.unswitched with
        | _ => rfl
      rw [hfilter, run_append]
      exact (ih (m.after call)).trans (trends_run_congr (m.trends_after_unswitched call) _)

/-! ## Verdicts without an active check -/

/-- The last result is healthy if the check was not active for it. -/
def HealthyUnlessActive (m : Monitor α) : Prop :=
  m.latest.active = false → m.latest.healthy = true

theorem healthyUnlessActive_check (m : Monitor α) (readings : List Reading) :
    (m.check readings).HealthyUnlessActive := by
  intro hactive
  have hoff : m.active = false := hactive
  rw [check, Round.result, hoff]
  rfl

theorem HealthyUnlessActive.after {m : Monitor α} (haccepted : m.settings.IsAccepted)
    (h : m.HealthyUnlessActive) (call : MonitorCall α) : (m.after call).HealthyUnlessActive := by
  have hcalled := called haccepted call
  generalize m.after call = after at hcalled ⊢
  cases hcalled with
  | checked readings => exact healthyUnlessActive_check m readings
  | switched => exact h
  | adopted => exact h
  | refused => exact h

theorem healthyUnlessActive_run {settings : MonitorSettings α} {m : Monitor α}
    (hstart : start settings = .ok m) (calls : List (MonitorCall α)) :
    (m.run calls).HealthyUnlessActive := by
  obtain ⟨haccepted, rfl⟩ := start_eq_ok_iff.1 hstart
  refine (run_induction (P := fun m => m.settings.IsAccepted ∧ m.HealthyUnlessActive)
    ⟨haccepted, fun _ => rfl⟩ (fun m call h => ?_) calls).2
  exact ⟨isAccepted_after h.1 call, h.2.after h.1 call⟩

/-! ## Two runs -/

/-- Monitors that start with the same settings, but for how they start, have the same trends. -/
theorem trends_start {settings settings' : MonitorSettings α} {m m' : Monitor α}
    (hstart : start settings = .ok m) (hstart' : start settings' = .ok m')
    (hsame : settings.started = settings'.started) : m.trends = m'.trends := by
  obtain ⟨-, rfl⟩ := start_eq_ok_iff.1 hstart
  obtain ⟨-, rfl⟩ := start_eq_ok_iff.1 hstart'
  exact congrArg (MonitorTrends.mk · .empty .empty .empty) hsame

/-- **The switch leaves the trends alone.**  Two monitors are started and driven the same, but for
how they start and for switches at any time.  Then they know the same, have published the same
about the queues, and will do so with the next round; and whatever was published without an active
check is healthy. -/
theorem switch_leaves_trends {settings settings' : MonitorSettings α} {m m' : Monitor α}
    (hstart : start settings = .ok m) (hstart' : start settings' = .ok m')
    (hsettings : settings.started = settings'.started) {calls calls' : List (MonitorCall α)}
    (hcalls : calls.filterMap MonitorCall.unswitched = calls'.filterMap MonitorCall.unswitched) :
    let left := m.run calls
    let right := m'.run calls'
    (∀ queue, left.snapshot? queue = right.snapshot? queue) ∧
      left.trackedQueues = right.trackedQueues ∧
      left.growthPolicy = right.growthPolicy ∧
      left.queues = right.queues ∧
      left.latest.details = right.latest.details ∧
      left.latest.skipped = right.latest.skipped ∧
      (∀ readings,
        (left.check readings).latest.details = (right.check readings).latest.details ∧
          (left.check readings).latest.skipped = (right.check readings).latest.skipped) ∧
      (left.latest.active = false → left.latest.healthy = true) ∧
      ∀ readings, left.active = false → (left.check readings).latest.healthy = true := by
  intro left right
  have hsame : left.trends = right.trends := by
    have hcommon := trends_run_congr (trends_start hstart hstart' hsettings)
      (calls.filterMap MonitorCall.unswitched)
    rw [← trends_run, hcalls, ← trends_run] at hcommon
    exact hcommon
  have hqueues : left.queues = right.queues := congrArg MonitorTrends.queues hsame
  refine ⟨fun queue => ?_, ?_, ?_, hqueues, congrArg MonitorTrends.details hsame,
    congrArg MonitorTrends.skipped hsame, fun readings => ?_, healthyUnlessActive_run hstart calls,
    fun readings => healthyUnlessActive_check left readings⟩
  · rw [snapshot?, snapshot?, hqueues]
  · rw [trackedQueues, trackedQueues, hqueues]
  · exact congrArg (fun t => t.settings.growthPolicy) hsame
  · have hnext := trends_check hsame readings
    exact ⟨congrArg MonitorTrends.details hnext, congrArg MonitorTrends.skipped hnext⟩

/-- One monitor is inactive from its start, also after its settings are changed, and the other is
switched off and on between its rounds. -/
theorem switch_leaves_trends_of_orders :
    let round : MonitorCall Float := .check [⟨"orders", .ok ⟨0, 1⟩⟩]
    let settings := { briskSettings with startActive := false }
    let right := briskMonitor.run [.deactivate, round, .activate, .reconfigure briskSettings, round]
    start briskSettings = .ok briskMonitor ∧ ∃ m, start settings = .ok m ∧
      let left := m.run [round, .reconfigure settings, .deactivate, round]
      right.latest.active = true ∧ left.latest.active = false ∧ left.latest.healthy = true ∧
        left.snapshot? "orders" = right.snapshot? "orders" := by
  intro round settings right
  have hstart : start settings = .ok ⟨false, settings, .empty, .pending false⟩ :=
    start_eq_ok_iff.2 ⟨⟨briskSettings_isAccepted.damping, briskSettings_isAccepted.policy,
      briskSettings_isAccepted.window⟩, rfl⟩
  have hcalls : [round, .reconfigure settings, .deactivate, round].filterMap
        MonitorCall.unswitched =
      [.deactivate, round, .activate, .reconfigure briskSettings, round].filterMap
        MonitorCall.unswitched := rfl
  have hright : right.latest.active = true := by decide +kernel
  obtain ⟨hsnapshot, -, -, -, -, -, -, hhealthy, -⟩ :=
    switch_leaves_trends hstart start_briskSettings rfl hcalls
  exact ⟨start_briskSettings, _, hstart, hright, rfl, hhealthy rfl, hsnapshot "orders"⟩

end Monitor

end Backlog
