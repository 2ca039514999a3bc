import Backlog.Monitor

/-!
# Accepted settings

A trend, a monitor and a change of settings all come out of a row of checks.  This file
says what the checks establish and what is left once they have succeeded:

* settings are accepted exactly if their damping is valid, their policy is, and the window
  holds two points (`Monitor.accepts_eq_ok_iff`); the id of the queue plays no part in it;
* an accepted trend is `QueueTrend.fresh`, an accepted monitor has seen no queue, and an
  accepted change replaces the settings and the policies and nothing else.
-/

namespace Backlog

/-! ## Checks in a row -/

theorem bind_eq_ok {ε α β : Type} {x : Except ε α} {f : α → Except ε β} {b : β} :
    (x >>= f) = .ok b ↔ ∃ a, x = .ok a ∧ f a = .ok b := by
  cases x <;> simp [bind, Except.bind]

/-- A check succeeds with nothing to hand on. -/
theorem check_bind_eq_ok {ε β : Type} {x : Except ε Unit} {y : Except ε β} {b : β} :
    (x >>= fun _ => y) = .ok b ↔ x = .ok () ∧ y = .ok b := by
  cases x <;> simp [bind, Except.bind]

theorem pure_eq_ok {ε β : Type} {a b : β} : (pure a : Except ε β) = .ok b ↔ b = a := by
  simp [pure, Except.pure, eq_comm]

theorem throw_ne_ok {ε β : Type} {e : ε} {b : β} : (throw e : Except ε β) ≠ .ok b := nofun

variable {α : Type} [Scalar α]

/-! ## Smoothers -/

/-- The damping that the settings of a smoother describe. -/
def SmoothingSettings.damping (s : SmoothingSettings α) : Damping α :=
  match s.mode with
  | .simple => .simple s.alpha
  | .double => .double s.alpha s.beta
  | .triple => .triple s.alpha s.beta s.gamma s.period

/-- All parameters lie in the unit interval, and a season has a component. -/
def Damping.IsValid : Damping α → Prop
  | .simple alpha => Scalar.isUnit alpha = true
  | .double alpha beta => Scalar.isUnit alpha = true ∧ Scalar.isUnit beta = true
  | .triple alpha beta gamma period =>
    Scalar.isUnit alpha = true ∧ Scalar.isUnit beta = true ∧ Scalar.isUnit gamma = true ∧
      0 < period

theorem Smoother.checkDamping_eq_ok_iff {name : String} {x : α} :
    checkDamping name x = .ok () ↔ Scalar.isUnit x = true := by
  unfold checkDamping
  split <;> simp_all

theorem Smoother.simple_eq_ok_iff {alpha : α} {smoother : Smoother α} :
    simple alpha = .ok smoother ↔
      (Damping.simple alpha).IsValid ∧ smoother = start (.simple alpha) := by
  simp only [simple, check_bind_eq_ok, pure_eq_ok, checkDamping_eq_ok_iff, Damping.IsValid]

theorem Smoother.double_eq_ok_iff {alpha beta : α} {smoother : Smoother α} :
    double alpha beta = .ok smoother ↔
      (Damping.double alpha beta).IsValid ∧ smoother = start (.double alpha beta) := by
  simp only [double, check_bind_eq_ok, pure_eq_ok, checkDamping_eq_ok_iff, Damping.IsValid,
    and_assoc]

theorem Smoother.triple_eq_ok_iff {alpha beta gamma : α} {period : Nat} {smoother : Smoother α} :
    triple alpha beta gamma period = .ok smoother ↔
      (Damping.triple alpha beta gamma period).IsValid ∧
        smoother = start (.triple alpha beta gamma period) := by
  simp only [triple, check_bind_eq_ok, checkDamping_eq_ok_iff, Damping.IsValid, and_assoc]
  by_cases hperiod : period = 0
  · have hno : ¬0 < period := by omega
    simp only [if_pos hperiod, check_bind_eq_ok, throw_ne_ok, hno, false_and]
  · have hpos : 0 < period := Nat.pos_of_ne_zero hperiod
    simp only [if_neg hperiod, pure_eq_ok, hpos, true_and]

theorem Smoother.ofSettings_eq_ok_iff {s : SmoothingSettings α} {smoother : Smoother α} :
    ofSettings s = .ok smoother ↔ s.damping.IsValid ∧ smoother = start s.damping := by
  unfold ofSettings SmoothingSettings.damping
  cases s.mode with
  | simple => exact simple_eq_ok_iff
  | double => exact double_eq_ok_iff
  | triple => exact triple_eq_ok_iff

/-! ## Trends -/

theorem GrowthPolicy.validate_eq_ok_iff {p : GrowthPolicy α} :
    p.validate = .ok () ↔
      (Scalar.isFinite p.threshold = true ∧ Scalar.lt p.threshold Scalar.zero = false) ∧
        Scalar.isFinite p.slopeScale = true ∧ Scalar.le p.slopeScale Scalar.zero = false := by
  unfold validate
  cases Scalar.isFinite p.threshold <;> cases Scalar.lt p.threshold Scalar.zero <;>
    cases Scalar.isFinite p.slopeScale <;> cases Scalar.le p.slopeScale Scalar.zero <;> simp

/-- The trend of a queue of which nothing is known yet. -/
def QueueTrend.fresh (queue : String) (windowSize : Nat) (smoother : Smoother α)
    (policy : GrowthPolicy α) : QueueTrend α where
  queue := queue
  windowSize := windowSize
  policy := policy
  smoother := smoother
  regression := ⟨.empty, .empty windowSize⟩
  origin := none
  timestamps := .empty windowSize
  rawSizes := .empty windowSize
  smoothedSizes := .empty windowSize
  currentSlope := Scalar.zero
  lastRaw := 0
  lastSmoothed := Scalar.zero

theorem QueueTrend.start_eq_ok_iff {queue : String} {windowSize : Nat} {smoother : Smoother α}
    {policy : GrowthPolicy α} {t : QueueTrend α} :
    start queue windowSize smoother policy = .ok t ↔
      policy.validate = .ok () ∧ 2 ≤ windowSize ∧ t = fresh queue windowSize smoother policy := by
  rw [start, check_bind_eq_ok, Regression.start]
  by_cases hwindow : windowSize < 2
  · have hno : ¬2 ≤ windowSize := Nat.not_le.2 hwindow
    simp only [if_pos hwindow, throw_ne_ok, hno, false_and]
  · have hle : 2 ≤ windowSize := Nat.not_lt.1 hwindow
    simp only [if_neg hwindow, pure_eq_ok, hle, true_and]
    rfl

/-- The settings with which every queue can be followed. -/
structure MonitorSettings.IsAccepted (s : MonitorSettings α) : Prop where
  damping : s.smoothing.damping.IsValid
  policy : s.growthPolicy.validate = .ok ()
  window : 2 ≤ s.windowSize

/-- The trend of a queue that is seen for the first time under these settings. -/
def MonitorSettings.freshTrend (s : MonitorSettings α) (queue : String) : QueueTrend α :=
  .fresh queue s.windowSize (.start s.smoothing.damping) s.growthPolicy

theorem QueueTrend.ofSettings_eq_ok_iff {queue : String} {s : MonitorSettings α}
    {t : QueueTrend α} :
    ofSettings queue s = .ok t ↔ s.IsAccepted ∧ t = s.freshTrend queue := by
  simp only [ofSettings, bind_eq_ok, Smoother.ofSettings_eq_ok_iff, start_eq_ok_iff]
  constructor
  · rintro ⟨_, ⟨hdamping, rfl⟩, hpolicy, hwindow, rfl⟩
    exact ⟨⟨hdamping, hpolicy, hwindow⟩, rfl⟩
  · rintro ⟨haccepted, rfl⟩
    exact ⟨_, ⟨haccepted.damping, rfl⟩, haccepted.policy, haccepted.window, rfl⟩

/-! ## Monitors -/

namespace Monitor

theorem accepts_eq_ok_iff {s : MonitorSettings α} : accepts s = .ok () ↔ s.IsAccepted := by
  simp only [accepts, bind_eq_ok, QueueTrend.ofSettings_eq_ok_iff]
  constructor
  · rintro ⟨_, ⟨haccepted, _⟩, _⟩
    exact haccepted
  · intro haccepted
    exact ⟨_, ⟨haccepted, rfl⟩, rfl⟩

theorem start_eq_ok_iff {s : MonitorSettings α} {m : Monitor α} :
    start s = .ok m ↔
      s.IsAccepted ∧ m = ⟨s.startActive, s, .empty, .pending s.startActive⟩ := by
  rw [start, check_bind_eq_ok, pure_eq_ok, accepts_eq_ok_iff]

theorem setGrowthPolicy_eq_ok_iff {m m' : Monitor α} {policy : GrowthPolicy α} :
    m.setGrowthPolicy policy = .ok m' ↔ policy.validate = .ok () ∧ m' =
      { m with
        settings := m.settings.withPolicy policy
        queues := m.queues.map (·.withPolicy policy) } := by
  rw [setGrowthPolicy, check_bind_eq_ok, pure_eq_ok]

theorem reconfigure_eq_ok_iff {m m' : Monitor α} {s : MonitorSettings α} :
    m.reconfigure s = .ok m' ↔ s.IsAccepted ∧ m' =
      { m with
        settings := s
        queues := m.queues.map (·.withPolicy s.growthPolicy) } := by
  rw [reconfigure, check_bind_eq_ok, pure_eq_ok, accepts_eq_ok_iff]

end Monitor

/-- The usual settings with an active check over two samples. -/
def briskSettings : MonitorSettings Float :=
  { MonitorSettings.standard with windowSize := 2, startActive := true }

theorem briskSettings_isAccepted : briskSettings.IsAccepted where
  damping := show Scalar.isUnit briskSettings.smoothing.alpha = true by decide +kernel
  policy := GrowthPolicy.validate_eq_ok_iff.2 (by decide +kernel)
  window := by decide

/-- The monitor that starts under these settings. -/
def briskMonitor : Monitor Float := ⟨true, briskSettings, .empty, .pending true⟩

theorem start_briskSettings : Monitor.start briskSettings = .ok briskMonitor :=
  Monitor.start_eq_ok_iff.2 ⟨briskSettings_isAccepted, rfl⟩

/-- A trend over two samples that takes sizes as they are. -/
def briskTrend : QueueTrend Float := .fresh "orders" 2 (.start (.simple 1.0)) .standard

theorem start_briskTrend :
    QueueTrend.start "orders" 2 (.start (.simple 1.0)) .standard = .ok briskTrend :=
  QueueTrend.start_eq_ok_iff.2 ⟨briskSettings_isAccepted.policy, Nat.le_refl 2, rfl⟩

end Backlog
