import Backlog.Proofs.Monitor.Run

/-!
# The settings in force

What a monitor was told last, and what its queues go by.  The settings of a monitor are
accepted after every run, so a queue can always be followed and none is left out of a round
because of the settings (`Round.trend_eq`).

A trend keeps what it was made with, its window and its damping (`QueueTrend.make`), whatever
is changed later: a round gives the make of the settings to queues that are new and leaves
that of the others alone (`Round.makeOf_foldl`).  So the make of a queue is that of the settings
at the check that took it in.  The policy is the other way round (`Monitor.PolicyInForce`).
-/

namespace Backlog

variable {α : Type} [Scalar α]

/-! ## What a trend is made with -/

/-- What a trend is made with: its window, as it is named and as its slope is taken over it, and
its damping. -/
structure TrendMake (α : Type) where
  windowSize : ℕ
  capacity : ℕ
  damping : Damping α

namespace QueueTrend

def make (t : QueueTrend α) : TrendMake α :=
  ⟨t.windowSize, t.regression.points.capacity, t.smoother.damping⟩

theorem make_accept (t : QueueTrend α) (timestamp raw : Int64) :
    (t.accept timestamp raw).make = t.make := by
  have hcapacity : (t.accept timestamp raw).regression.points.capacity =
      t.regression.points.capacity := by
    simp only [accept, Regression.points_push, Ring.capacity_push]
  rw [make, hcapacity]
  rfl

omit [Scalar α] in
theorem make_withPolicy (t : QueueTrend α) (policy : GrowthPolicy α) :
    (t.withPolicy policy).make = t.make := rfl

end QueueTrend

namespace MonitorSettings

/-- The make of the trends that begin under these settings. -/
def make (s : MonitorSettings α) : TrendMake α :=
  ⟨s.windowSize, s.windowSize, s.smoothing.damping⟩

theorem make_freshTrend {s : MonitorSettings α} (h : s.IsAccepted) (queue : String) :
    (s.freshTrend queue).make = s.make := by
  have hcapacity : max s.windowSize 1 = s.windowSize := by
    have := h.window
    omega
  exact congrArg (TrendMake.mk s.windowSize · s.smoothing.damping) hcapacity

theorem IsAccepted.withPolicy {s : MonitorSettings α} (h : s.IsAccepted)
    {policy : GrowthPolicy α} (hvalid : policy.validate = .ok ()) :
    (s.withPolicy policy).IsAccepted :=
  ⟨h.damping, hvalid, h.window⟩

end MonitorSettings

omit [Scalar α] in
theorem SmoothingSettings.mode_damping (s : SmoothingSettings α) : s.damping.mode = s.mode := by
  unfold damping
  cases hmode : s.mode with
  | _ => rfl

/-! ## Reasons for leaving a queue out -/

theorem SourceFault.reason_ne_message (fault : SourceFault) (cause : SettingFault) :
    fault.reason ≠ (Fault.invalidConfig cause).message := by
  intro heq
  have hfirst := congrArg (·.toList.head?) heq
  cases fault <;> simp [reason, Fault.message] at hfirst

namespace Round

/-- With accepted settings there is a trend of every queue. -/
theorem trend_eq {settings : MonitorSettings α} (haccepted : settings.IsAccepted) (r : Round α)
    (queue : String) :
    r.trend settings queue = .ok ((r.queues.find? queue).getD (settings.freshTrend queue)) := by
  unfold trend
  cases r.queues.find? queue with
  | some known => rfl
  | none => exact QueueTrend.ofSettings_eq_ok_iff.2 ⟨haccepted, rfl⟩

/-- The make of a queue in a round: its own, or that which it would get. -/
def makeOf (settings : MonitorSettings α) (r : Round α) (queue : String) : TrendMake α :=
  ((r.queues.find? queue).map QueueTrend.make).getD settings.make

theorem make_of_trend {settings : MonitorSettings α} (haccepted : settings.IsAccepted) {r : Round α}
    {queue : String} {trend : QueueTrend α} (htrend : r.trend settings queue = .ok trend) :
    trend.make = r.makeOf settings queue := by
  rw [trend_eq haccepted] at htrend
  rw [← Except.ok.inj htrend, makeOf]
  cases r.queues.find? queue with
  | some known => rfl
  | none => exact MonitorSettings.make_freshTrend haccepted queue

omit [Scalar α] in
theorem makeOf_insert (settings : MonitorSettings α) (r : Round α) {queue : String}
    {trend : QueueTrend α} (hmake : trend.make = r.makeOf settings queue) (q : String) :
    makeOf settings { r with queues := r.queues.insert queue trend } q = r.makeOf settings q := by
  unfold makeOf at hmake ⊢
  rw [Table.find?_insert]
  by_cases hqueue : queue = q
  · subst hqueue
    rw [if_pos rfl, ← hmake]
    rfl
  · rw [if_neg hqueue]

/-- A reading changes no make. -/
theorem makeOf_take {settings : MonitorSettings α} (haccepted : settings.IsAccepted) (r : Round α)
    (reading : Reading) (queue : String) :
    (r.take settings reading).makeOf settings queue = r.makeOf settings queue := by
  have htaken := r.taken settings reading
  generalize r.take settings reading = after at htaken ⊢
  cases htaken with
  | unread => rfl
  | refused => rfl
  | late _ htrend => exact makeOf_insert settings r (make_of_trend haccepted htrend) queue
  | @recorded sample trend _ htrend =>
      have hmake : (trend.accept sample.timestamp sample.ready).make =
          r.makeOf settings reading.queue :=
        (trend.make_accept _ _).trans (make_of_trend haccepted htrend)
      exact makeOf_insert settings r hmake queue

theorem makeOf_foldl {settings : MonitorSettings α} (haccepted : settings.IsAccepted)
    (readings : List Reading) (r : Round α) (queue : String) :
    (readings.foldl (take settings) r).makeOf settings queue = r.makeOf settings queue := by
  induction readings generalizing r with
  | nil => rfl
  | cons reading rest ih => exact (ih _).trans (makeOf_take haccepted r reading queue)

/-- A queue that is known in a round stays known. -/
theorem contains_take {settings : MonitorSettings α} {r : Round α} {queue : String}
    (hknown : r.queues.contains queue = true) (reading : Reading) :
    (r.take settings reading).queues.contains queue = true := by
  have htaken := r.taken settings reading
  generalize r.take settings reading = after at htaken ⊢
  cases htaken with
  | unread => exact hknown
  | refused => exact hknown
  | late => exact (Table.contains_insert ..).trans (by rw [hknown, Bool.or_true])
  | recorded => exact (Table.contains_insert ..).trans (by rw [hknown, Bool.or_true])

theorem contains_foldl {settings : MonitorSettings α} {r : Round α} {queue : String}
    (hknown : r.queues.contains queue = true) (readings : List Reading) :
    (readings.foldl (take settings) r).queues.contains queue = true := by
  induction readings generalizing r with
  | nil => exact hknown
  | cons reading rest ih => exact ih (contains_take hknown reading)

/-- The reasons in a round are not about the settings. -/
def NotForSettings (r : Round α) : Prop :=
  ∀ queue reason, r.skipped.find? queue = some reason →
    ∀ cause, reason ≠ (Fault.invalidConfig cause).message

omit [Scalar α] in
theorem NotForSettings.skip {r : Round α} (h : r.NotForSettings) {queue reason : String}
    (hreason : ∀ cause, reason ≠ (Fault.invalidConfig cause).message) :
    (r.skip queue reason).NotForSettings := by
  intro q why hfind
  rw [Round.skip, Table.find?_insert] at hfind
  split at hfind
  · rw [← Option.some.inj hfind]
    exact hreason
  · exact h q why hfind

theorem NotForSettings.take {settings : MonitorSettings α} (haccepted : settings.IsAccepted)
    {r : Round α} (h : r.NotForSettings) (reading : Reading) :
    (r.take settings reading).NotForSettings := by
  have htaken := r.taken settings reading
  generalize r.take settings reading = after at htaken ⊢
  cases htaken with
  | unread => exact h.skip fun cause => SourceFault.reason_ne_message _ cause
  | refused _ htrend =>
      rw [trend_eq haccepted] at htrend
      cases htrend
  | late =>
      refine NotForSettings.skip (r := { r with queues := _ }) h fun cause heq => ?_
      have hfirst := congrArg (·.toList.head?) heq
      simp [Fault.message] at hfirst
  | recorded => exact h

theorem NotForSettings.foldl {settings : MonitorSettings α} (haccepted : settings.IsAccepted)
    (readings : List Reading) {r : Round α} (h : r.NotForSettings) :
    (readings.foldl (Round.take settings) r).NotForSettings := by
  induction readings generalizing r with
  | nil => exact h
  | cons reading rest ih => exact ih (h.take haccepted reading)

end Round

/-! ## Over a run -/

namespace Monitor

theorem run_append (m : Monitor α) (calls calls' : List (MonitorCall α)) :
    m.run (calls ++ calls') = (m.run calls).run calls' :=
  List.foldl_append

theorem run_concat (m : Monitor α) (calls : List (MonitorCall α)) (call : MonitorCall α) :
    m.run (calls ++ [call]) = (m.run calls).after call :=
  m.run_append calls [call]

/-- What a call can do to a monitor. -/
inductive Called (m : Monitor α) : MonitorCall α → Monitor α → Prop
  | checked (readings : List Reading) : Called m (.check readings) (m.check readings)
  | switched {call : MonitorCall α} (active : Bool) : Called m call { m with active }
  | adopted {call : MonitorCall α} {settings : MonitorSettings α}
      (haccepted : settings.IsAccepted) : Called m call (m.adopt settings)
  | refused {call : MonitorCall α} : Called m call m

theorem called {m : Monitor α} (h : m.settings.IsAccepted) (call : MonitorCall α) :
    m.Called call (m.after call) := by
  cases call with
  | check readings => exact .checked readings
  | activate => exact .switched true
  | deactivate => exact .switched false
  | setGrowthPolicy policy =>
      rw [after_setGrowthPolicy]
      cases hvalid : policy.validate with
      | ok => exact .adopted (h.withPolicy hvalid)
      | error _ => exact .refused
  | reconfigure settings =>
      rw [after_reconfigure]
      cases haccepts : accepts settings with
      | ok => exact .adopted (accepts_eq_ok_iff.1 haccepts)
      | error _ => exact .refused

theorem isAccepted_after {m : Monitor α} (h : m.settings.IsAccepted) (call : MonitorCall α) :
    (m.after call).settings.IsAccepted := by
  have hcalled := called h call
  generalize m.after call = after at hcalled ⊢
  cases hcalled with
  | checked => exact h
  | switched => exact h
  | adopted haccepted => exact haccepted
  | refused => exact h

theorem isAccepted_run {settings : MonitorSettings α} {m : Monitor α}
    (hstart : start settings = .ok m) (calls : List (MonitorCall α)) :
    (m.run calls).settings.IsAccepted := by
  obtain ⟨haccepted, rfl⟩ := start_eq_ok_iff.1 hstart
  exact run_induction (P := fun m => m.settings.IsAccepted) haccepted
    (fun _ call h => isAccepted_after h call) calls

/-! ### The queues that are known -/

/-- A queue that is known stays known. -/
theorem contains_after {m : Monitor α} (haccepted : m.settings.IsAccepted) {queue : String}
    (hknown : m.queues.contains queue = true) (call : MonitorCall α) :
    (m.after call).queues.contains queue = true := by
  have hcalled := called haccepted call
  generalize m.after call = after at hcalled ⊢
  cases hcalled with
  | checked readings => exact Round.contains_foldl hknown readings
  | switched => exact hknown
  | adopted =>
      rw [adopt, Table.contains, Table.find?_map, Option.isSome_map]
      exact hknown
  | refused => exact hknown

theorem contains_run {m : Monitor α} (haccepted : m.settings.IsAccepted) {queue : String}
    (hknown : m.queues.contains queue = true) (calls : List (MonitorCall α)) :
    (m.run calls).queues.contains queue = true := by
  refine (run_induction (P := fun m => m.settings.IsAccepted ∧ m.queues.contains queue = true)
    ⟨haccepted, hknown⟩ (fun m call h => ?_) calls).2
  exact ⟨isAccepted_after h.1 call, contains_after h.1 h.2 call⟩

theorem makeOf_check {m : Monitor α} (haccepted : m.settings.IsAccepted)
    (readings : List Reading) (queue : String) :
    (((m.check readings).queues.find? queue).map QueueTrend.make).getD m.settings.make =
      ((m.queues.find? queue).map QueueTrend.make).getD m.settings.make :=
  Round.makeOf_foldl haccepted readings ⟨m.queues, [], .empty⟩ queue

/-- A known queue is as it was made, or a check has just taken it in. -/
theorem make_after {m : Monitor α} (haccepted : m.settings.IsAccepted) {call : MonitorCall α}
    {queue : String} {trend : QueueTrend α}
    (hfind : (m.after call).queues.find? queue = some trend) :
    (∃ old, m.queues.find? queue = some old ∧ trend.make = old.make) ∨
      m.queues.find? queue = none ∧ trend.make = m.settings.make ∧
        ∃ readings, call = .check readings := by
  have hcalled := called haccepted call
  generalize m.after call = after at hcalled hfind
  cases hcalled with
  | checked readings =>
      have hmake := makeOf_check haccepted readings queue
      rw [hfind] at hmake
      cases hold : m.queues.find? queue with
      | some old =>
          rw [hold] at hmake
          exact .inl ⟨old, rfl, hmake⟩
      | none =>
          rw [hold] at hmake
          exact .inr ⟨rfl, hmake, readings, rfl⟩
  | switched => exact .inl ⟨trend, hfind, rfl⟩
  | adopted =>
      rw [adopt, Table.find?_map] at hfind
      obtain ⟨old, hold, rfl⟩ := Option.map_eq_some_iff.1 hfind
      exact .inl ⟨old, hold, old.make_withPolicy _⟩
  | refused => exact .inl ⟨trend, hfind, rfl⟩

/-- The check that took a queue in: the queue was never known before it, and is known after
it. -/
structure TookIn (m : Monitor α) (queue : String) (before : List (MonitorCall α))
    (readings : List Reading) : Prop where
  unknown : ∀ n, (m.run (before.take n)).queues.contains queue = false
  known : ((m.run before).check readings).queues.contains queue = true

/-- Each known queue was taken in by a check, and its make is that of the settings at the time. -/
theorem exists_tookIn {settings : MonitorSettings α} {m : Monitor α}
    (hstart : start settings = .ok m) (calls : List (MonitorCall α)) {queue : String}
    {trend : QueueTrend α} (hfind : (m.run calls).queues.find? queue = some trend) :
    ∃ before readings later, calls = before ++ .check readings :: later ∧
      m.TookIn queue before readings ∧ trend.make = (m.run before).settings.make := by
  induction calls using List.reverseRecOn generalizing trend with
  | nil =>
      obtain ⟨-, rfl⟩ := start_eq_ok_iff.1 hstart
      cases hfind
  | append_singleton calls call ih =>
      rw [run_concat] at hfind
      rcases make_after (isAccepted_run hstart calls) hfind with
        ⟨old, hold, hmake⟩ | ⟨hnone, hmake, readings, rfl⟩
      · obtain ⟨before, readings, later, rfl, htook, hbefore⟩ := ih hold
        refine ⟨before, readings, later ++ [call], ?_, htook, hmake.trans hbefore⟩
        rw [List.append_assoc, List.cons_append]
      · refine ⟨calls, readings, [], rfl, ⟨fun n => ?_, ?_⟩, hmake⟩
        -- had it been known at any time, it would be known now
        · by_contra hknown
          have hstays := contains_run (isAccepted_run hstart (calls.take n))
            (Bool.not_eq_false _ ▸ hknown) (calls.drop n)
          rw [← run_append, List.take_append_drop, Table.contains, hnone] at hstays
          cases hstays
        · exact Option.isSome_iff_exists.2 ⟨trend, hfind⟩

/-! ### All of it together -/

/-- A change of the settings that is refused leaves the monitor as it was.  One that is accepted
leaves of it what the settings do not say, and of a queue all but its policy. -/
structure Changes (m : Monitor α) (call : MonitorCall α) (outcome : Except SettingFault (Monitor α))
    (settings : MonitorSettings α) : Prop where
  refused : ∀ cause, outcome = .error cause → m.after call = m
  accepted : ∀ next, outcome = .ok next → m.after call = next
  settings_eq : ∀ next, outcome = .ok next → next.settings = settings
  active_eq : ∀ next, outcome = .ok next → next.active = m.active
  latest_eq : ∀ next, outcome = .ok next → next.latest = m.latest
  queues_eq : ∀ next, outcome = .ok next → ∀ queue, next.queues.find? queue =
    (m.queues.find? queue).map fun trend => { trend with policy := settings.growthPolicy }

theorem changes_of_adopt {m : Monitor α} {call : MonitorCall α}
    {outcome : Except SettingFault (Monitor α)} {settings : MonitorSettings α}
    (hafter : m.after call = outcome.toOption.getD m)
    (hadopt : ∀ next, outcome = .ok next → next = m.adopt settings) :
    m.Changes call outcome settings where
  refused := by
    rintro cause rfl
    exact hafter
  accepted := by
    rintro next rfl
    exact hafter
  settings_eq next hnext := by
    rw [hadopt next hnext]
    rfl
  active_eq next hnext := by
    rw [hadopt next hnext]
    rfl
  latest_eq next hnext := by
    rw [hadopt next hnext]
    rfl
  queues_eq next hnext queue := by
    rw [hadopt next hnext]
    exact Table.find?_map _ _ queue

/-- **What is in force after any run.**  Every queue can be followed under the settings, and no
check leaves one out because of them.  Every known queue goes by the policy of the monitor, and its
window and smoothing are those of the settings at the check that took it in.  A policy or
settings are accepted exactly if they are valid; else the monitor stays as it was, and if they
are, then nothing but its policy is changed of any queue. -/
theorem settings_in_force {settings : MonitorSettings α} {m : Monitor α}
    (hstart : start settings = .ok m) (calls : List (MonitorCall α)) :
    let now := m.run calls
    (∀ queue, (QueueTrend.ofSettings queue now.settings).isOk = true) ∧
      (∀ readings queue reason, (now.check readings).latest.skipped.find? queue = some reason →
        ∀ cause, reason ≠ (Fault.invalidConfig cause).message) ∧
      (∀ queue trend, now.queues.find? queue = some trend →
        trend.policy = now.growthPolicy ∧
          ∃ before readings later, calls = before ++ .check readings :: later ∧
            m.TookIn queue before readings ∧
            let made := (m.run before).settings
            trend.windowSize = made.windowSize ∧
              trend.regression.points.capacity = made.windowSize ∧
              trend.smoother.damping = made.smoothing.damping ∧
              trend.smoother.damping.mode = made.smoothing.mode) ∧
      (∀ policy, (∃ next, now.setGrowthPolicy policy = .ok next) ↔ policy.validate = .ok ()) ∧
      (∀ other, (∃ next, now.reconfigure other = .ok next) ↔ other.IsAccepted) ∧
      (∀ policy, now.Changes (.setGrowthPolicy policy) (now.setGrowthPolicy policy)
        (now.settings.withPolicy policy)) ∧
      ∀ other, now.Changes (.reconfigure other) (now.reconfigure other) other := by
  intro now
  have haccepted : now.settings.IsAccepted := isAccepted_run hstart calls
  have hforce : now.PolicyInForce := (PolicyInForce.of_start hstart).run calls
  refine ⟨fun queue => ?_, fun readings => ?_, fun queue trend hfind => ?_, fun policy => ?_,
    fun other => ?_, fun policy => ?_, fun other => ?_⟩
  · rw [QueueTrend.ofSettings_eq_ok_iff.2 ⟨haccepted, rfl⟩]
    rfl
  · have hnone : Round.NotForSettings (⟨now.queues, [], .empty⟩ : Round α) := nofun
    exact hnone.foldl haccepted readings
  · obtain ⟨before, readings, later, heq, htook, hmake⟩ := exists_tookIn hstart calls hfind
    have hdamping : trend.smoother.damping = (m.run before).settings.smoothing.damping :=
      congrArg TrendMake.damping hmake
    refine ⟨hforce.policy_eq hfind, before, readings, later, heq, htook,
      congrArg TrendMake.windowSize hmake, congrArg TrendMake.capacity hmake, hdamping, ?_⟩
    rw [hdamping, SmoothingSettings.mode_damping]
  · constructor
    · rintro ⟨next, hnext⟩
      exact (setGrowthPolicy_eq_ok_iff.1 hnext).1
    · exact fun hvalid => ⟨_, setGrowthPolicy_eq_ok_iff.2 ⟨hvalid, rfl⟩⟩
  · constructor
    · rintro ⟨next, hnext⟩
      exact (reconfigure_eq_ok_iff.1 hnext).1
    · exact fun hother => ⟨_, reconfigure_eq_ok_iff.2 ⟨hother, rfl⟩⟩
  · exact changes_of_adopt rfl fun next hnext => (setGrowthPolicy_eq_ok_iff.1 hnext).2
  · exact changes_of_adopt rfl fun next hnext => (reconfigure_eq_ok_iff.1 hnext).2

/-- A queue keeps its window of two samples when the monitor turns to three, and takes the new
policy. -/
theorem settings_in_force_after_reconfigure :
    let calls : List (MonitorCall Float) := [.check [⟨"orders", .ok ⟨0, 1⟩⟩],
      .reconfigure { briskSettings with windowSize := 3, growthThreshold := 2 }]
    let now := briskMonitor.run calls
    start briskSettings = .ok briskMonitor ∧ now.settings.windowSize = 3 ∧
      ∃ trend, now.queues.find? "orders" = some trend ∧ trend.windowSize = 2 ∧
        trend.policy = now.growthPolicy := by
  intro calls now
  obtain ⟨-, -, hqueues, -⟩ := settings_in_force start_briskSettings calls
  have hknown : (now.queues.find? "orders").isSome = true := by decide +kernel
  obtain ⟨trend, hfind⟩ := Option.isSome_iff_exists.1 hknown
  obtain ⟨hpolicy, before, readings, later, heq, -, hwindow, -⟩ := hqueues "orders" trend hfind
  -- the only check of the run is its first call
  have hfirst : before = [] := by
    cases before with
    | nil => rfl
    | cons call rest =>
        have hmem : MonitorCall.check readings ∈ calls.tail := by
          rw [heq]
          exact List.mem_append_right rest List.mem_cons_self
        cases List.mem_singleton.1 hmem
  subst hfirst
  exact ⟨start_briskSettings, by decide +kernel, trend, hfind, hwindow, hpolicy⟩

end Monitor

end Backlog
