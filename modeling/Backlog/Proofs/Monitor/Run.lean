import Backlog.Proofs.Monitor.Round

/-!
# Runs of a monitor

A monitor is driven by calls in any order: rounds, switches of the check and changes of
the settings.  `Monitor.after` is one call and `Monitor.run` a row of them.  The two calls
that change settings do the same thing once they are accepted (`Monitor.adopt`), and a
call that is refused does nothing.

The invariant of all runs is `Monitor.PolicyInForce`: the trends of the monitor stand under
their own ids and go by the policy that the monitor answers when it is asked for one.  A
queue that is seen for the first time takes the policy from the settings, and every change
of the settings hands the new policy to the queues that are known already.
-/

namespace Backlog

/-- What a monitor can be asked to do. -/
inductive MonitorCall (α : Type) where
  | check (readings : List Reading)
  | activate
  | deactivate
  | setGrowthPolicy (policy : GrowthPolicy α)
  | reconfigure (settings : MonitorSettings α)

namespace Monitor

variable {α : Type}

/-- The monitor under other settings: the trends stay and go by the new policy. -/
def adopt (m : Monitor α) (settings : MonitorSettings α) : Monitor α :=
  { m with settings, queues := m.queues.map (·.withPolicy settings.growthPolicy) }

/-- The trends stand under their own ids and go by the policy of the monitor. -/
def PolicyInForce (m : Monitor α) : Prop := TrendsUnder m.growthPolicy m.queues

theorem PolicyInForce.adopt {m : Monitor α} (h : m.PolicyInForce) (settings : MonitorSettings α) :
    (m.adopt settings).PolicyInForce :=
  TrendsUnder.withPolicy h settings.growthPolicy

variable [Scalar α]

/-- The monitor after a call.  A change that is refused leaves it as it was. -/
def after (m : Monitor α) : MonitorCall α → Monitor α
  | .check readings => m.check readings
  | .activate => m.activate
  | .deactivate => m.deactivate
  | .setGrowthPolicy policy => (m.setGrowthPolicy policy).toOption.getD m
  | .reconfigure settings => (m.reconfigure settings).toOption.getD m

/-- The monitor after a row of calls. -/
def run (m : Monitor α) (calls : List (MonitorCall α)) : Monitor α := calls.foldl after m

/-! ## Changes of the settings -/

theorem after_setGrowthPolicy (m : Monitor α) (policy : GrowthPolicy α) :
    m.after (.setGrowthPolicy policy) =
      match policy.validate with
      | .ok () => m.adopt (m.settings.withPolicy policy)
      | .error _ => m := by
  cases hvalid : policy.validate with
  | ok =>
      rw [after, setGrowthPolicy_eq_ok_iff.2 ⟨hvalid, rfl⟩]
      rfl
  | error cause =>
      rw [after, setGrowthPolicy, hvalid]
      rfl

theorem after_reconfigure (m : Monitor α) (settings : MonitorSettings α) :
    m.after (.reconfigure settings) =
      match accepts settings with
      | .ok () => m.adopt settings
      | .error _ => m := by
  cases haccepts : accepts settings with
  | ok =>
      rw [after, reconfigure_eq_ok_iff.2 ⟨accepts_eq_ok_iff.1 haccepts, rfl⟩]
      rfl
  | error cause =>
      rw [after, reconfigure, haccepts]
      rfl

/-! ## The invariant -/

/-- What holds of the initial monitor and is kept by every call holds after every run. -/
theorem run_induction {P : Monitor α → Prop} {m : Monitor α} (hm : P m)
    (hafter : ∀ m call, P m → P (m.after call)) (calls : List (MonitorCall α)) :
    P (m.run calls) := by
  induction calls generalizing m with
  | nil => exact hm
  | cons call rest ih => exact ih (hafter m call hm)

theorem PolicyInForce.of_start {settings : MonitorSettings α} {m : Monitor α}
    (hstart : start settings = .ok m) : m.PolicyInForce := by
  obtain ⟨_, rfl⟩ := start_eq_ok_iff.1 hstart
  exact TrendsUnder.empty

/-- A round begins with trends that go by the policy. -/
theorem PolicyInForce.round_nil {m : Monitor α} (h : m.PolicyInForce) :
    Round.Sound m.settings ⟨m.queues, [], .empty⟩ :=
  ⟨h, fun hmem => absurd hmem List.not_mem_nil⟩

theorem PolicyInForce.round {m : Monitor α} (h : m.PolicyInForce) (readings : List Reading) :
    (m.round readings).Sound m.settings :=
  h.round_nil.foldl readings

theorem PolicyInForce.after {m : Monitor α} (h : m.PolicyInForce) (call : MonitorCall α) :
    (m.after call).PolicyInForce := by
  cases call with
  | check readings => exact (h.round readings).trends
  | activate => exact h
  | deactivate => exact h
  | setGrowthPolicy policy =>
      rw [after_setGrowthPolicy]
      cases policy.validate with
      | ok => exact h.adopt _
      | error _ => exact h
  | reconfigure settings =>
      rw [after_reconfigure]
      cases accepts settings with
      | ok => exact h.adopt _
      | error _ => exact h

theorem PolicyInForce.run {m : Monitor α} (h : m.PolicyInForce) (calls : List (MonitorCall α)) :
    (m.run calls).PolicyInForce :=
  run_induction h (fun _ call hm => hm.after call) calls

end Monitor

end Backlog
