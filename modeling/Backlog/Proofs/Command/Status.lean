import Backlog.Command.Run
import Backlog.Proofs.Service.Freshness
import Backlog.Proofs.Service.StateDocument
import Backlog.Proofs.Settings.Load

/-!
# What the status command answers

The command loads the settings and the state file and judges what it finds.  On the way nothing
happens to the machine but that something is printed on its error stream (`Machine.Speaks`), so
all is judged by the machine as it was: by the text of its state file and by its clock
(`failure_runStatus`).

A state passes if it is healthy and not stale.  To be stale it has to say when it was written; a
state that does not say so in a way that can be read passes too, while signals are not sent to its
process (`HealthState.signalTarget_eq_ok_iff`).
-/

namespace Backlog

open Machine

/-! ## What the command reads -/

namespace HealthState

theorem speaks_load (path : String) (pollIntervalMs : Nat) :
    Speaks (load path pollIntervalMs) := by
  refine .bind (fun s => ?_) fun text => ?_
  · rw [readText_apply]
    exact .refl s
  · cases text with
    | error fault => exact .pure _
    | ok text =>
        dsimp only
        cases ofText? text with
        | none => exact .pure _
        | some state =>
            refine .bind (fun s => .refl s) fun now => ?_
            split
            · exact .bind (speaks_warn _) fun _ => .pure _
            · exact .pure _

theorem load_of_fault {path : String} {fault : IoFault} {s : Machine}
    (h : s.textOn path = .error fault) (pollIntervalMs : Nat) :
    (load (m := StateM Machine) path pollIntervalMs s).1 =
      .error (.stateUnavailable ("cannot read " ++ path ++ ": " ++ fault.message)) := by
  rw [load, StateM.bind_apply, readText_apply, h]
  rfl

/-- A file on a machine holds a state. -/
def IsOn (state : HealthState) (s : Machine) (file : String) : Prop :=
  ∃ text, s.textOn file = .ok text ∧ ofText? text = some state

theorem IsOn.unique {state state' : HealthState} {s : Machine} {file : String}
    (h : state.IsOn s file) (h' : state'.IsOn s file) : state = state' := by
  obtain ⟨text, htext, hstate⟩ := h
  obtain ⟨text', htext', hstate'⟩ := h'
  cases htext.symm.trans htext'
  exact Option.some.inj (hstate.symm.trans hstate')

end HealthState

/-! ## The command -/

namespace Command

theorem judge_eq_none_iff {state : HealthState} {isStale : Bool} :
    judge state isStale = none ↔ isStale = false ∧ state.result.healthy = true := by
  unfold judge
  cases isStale <;> simp

theorem judge_cases (state : HealthState) (isStale : Bool) :
    judge state isStale = none ∨ ∃ message, judge state isStale = some (.unhealthy message) := by
  unfold judge
  split
  · exact .inr ⟨_, rfl⟩
  · split
    · exact .inl rfl
    · exact .inr ⟨_, rfl⟩

section

variable {i : Invocation} {terminal : Terminal} {s : Machine} {settings : Settings}

/-- How the command ends is decided by the state file and the clock. -/
theorem failure_runStatus
    (hload : (Settings.load (m := StateM Machine) i.config s).1 = .ok settings) :
    (runStatus (m := StateM Machine) i terminal s).1.failure =
      match s.textOn settings.paths.stateFile with
      | .error fault => some (.unhealthy (Fault.stateUnavailable
          ("cannot read " ++ settings.paths.stateFile ++ ": " ++ fault.message)).message)
      | .ok text =>
        match HealthState.ofText? text with
        | none => some (.unhealthy (Fault.stateUnavailable
            ("invalid state file " ++ settings.paths.stateFile ++ ": " ++ Json.faultText)).message)
        | some state => judge state (state.isStale s.now settings.monitor.pollIntervalMs) := by
  have hspoke := Settings.speaks_load i.config s
  rw [runStatus, StateM.bind_apply, hload]
  dsimp only
  generalize (Settings.load (m := StateM Machine) i.config s).2 = s₁ at hspoke ⊢
  have hread := HealthState.speaks_load settings.paths.stateFile settings.monitor.pollIntervalMs s₁
  rw [StateM.bind_apply, ← hspoke.textOn, ← hspoke.now, ← hread.now]
  cases htext : s₁.textOn settings.paths.stateFile with
  | error fault =>
      rw [HealthState.load_of_fault htext]
      rfl
  | ok text =>
      rw [HealthState.load_of_textOn _ htext]
      dsimp only
      cases HealthState.ofText? text with
      | none => rfl
      | some state => rfl

theorem failure_of_isOn {state : HealthState}
    (hload : (Settings.load (m := StateM Machine) i.config s).1 = .ok settings)
    (hstate : state.IsOn s settings.paths.stateFile) :
    (runStatus (m := StateM Machine) i terminal s).1.failure =
      judge state (state.isStale s.now settings.monitor.pollIntervalMs) := by
  obtain ⟨text, htext, hstate⟩ := hstate
  rw [failure_runStatus hload, htext]
  dsimp only
  rw [hstate]

theorem failure_runStatus_cases (terminal : Terminal)
    (hload : (Settings.load (m := StateM Machine) i.config s).1 = .ok settings) :
    (runStatus (m := StateM Machine) i terminal s).1.failure = none ∨
      ∃ message, (runStatus (m := StateM Machine) i terminal s).1.failure =
        some (.unhealthy message) := by
  rw [failure_runStatus hload]
  cases s.textOn settings.paths.stateFile with
  | error fault => exact .inr ⟨_, rfl⟩
  | ok text =>
      dsimp only
      cases HealthState.ofText? text with
      | none => exact .inr ⟨_, rfl⟩
      | some state => exact judge_cases state _

/-- Without a state the command does not succeed. -/
theorem exists_isOn_of_failure_eq_none
    (hload : (Settings.load (m := StateM Machine) i.config s).1 = .ok settings)
    (hnone : (runStatus (m := StateM Machine) i terminal s).1.failure = none) :
    ∃ state : HealthState, state.IsOn s settings.paths.stateFile := by
  rw [failure_runStatus hload] at hnone
  cases htext : s.textOn settings.paths.stateFile with
  | error fault =>
      rw [htext] at hnone
      cases hnone
  | ok text =>
      rw [htext] at hnone
      dsimp only at hnone
      cases hstate : HealthState.ofText? text with
      | none =>
          rw [hstate] at hnone
          cases hnone
      | some state => exact ⟨state, text, htext, hstate⟩

/-- **What the status command answers.**  It succeeds, or it fails with the exit code one because
the daemon counts as unhealthy.  If the state file says when it was written, or there is no state
in it, then the command succeeds exactly for a healthy state of an age within the limit, and that
is a state whose process signals are sent to, if it is not number zero.  A state that does not say
when it was written passes if it is healthy, though no signals are sent then. -/
theorem status_succeeds_iff (terminal : Terminal)
    (hload : (Settings.load (m := StateM Machine) i.config s).1 = .ok settings) :
    let outcome := (runStatus (m := StateM Machine) i terminal s).1
    let interval := settings.monitor.pollIntervalMs
    let file := settings.paths.stateFile
    (outcome.failure = none ∧ outcome.exitCode = 0 ∨
        ∃ message, outcome.failure = some (.unhealthy message) ∧ outcome.exitCode = 1) ∧
      ((∀ state : HealthState, state.IsOn s file → state.ageSeconds s.now ≠ none) →
        (outcome.failure = none ↔ ∃ state : HealthState, state.IsOn s file ∧
          state.result.healthy = true ∧
          ∃ age, state.ageSeconds s.now = some age ∧ age ≤ HealthState.staleLimit interval)) ∧
      (∀ state : HealthState, state.IsOn s file → state.ageSeconds s.now ≠ none → state.pid ≠ 0 →
        (outcome.failure = none ↔ state.result.healthy = true ∧
          state.signalTarget s.now interval = .ok state.pid)) ∧
      (∀ state : HealthState, state.IsOn s file → state.ageSeconds s.now = none →
        (outcome.failure = none ↔ state.result.healthy = true) ∧
          ∀ pid, state.signalTarget s.now interval ≠ .ok pid) ∧
      (Calendar.millis s.now < 2 ^ 63 → ∀ (state : HealthState) (age : ℤ),
        state.ageSeconds s.now = some age →
          (age ≤ HealthState.staleLimit interval ↔ age ≤ (max 1 (3 * interval / 1000) : ℕ))) := by
  intro outcome interval file
  have hjudged : ∀ state : HealthState, state.IsOn s file →
      outcome.failure = judge state (state.isStale s.now interval) :=
    fun state hstate => failure_of_isOn hload hstate
  have hreadable : ∀ state : HealthState, state.IsOn s file → state.ageSeconds s.now ≠ none →
      (outcome.failure = none ↔ state.result.healthy = true ∧
        ∃ age, state.ageSeconds s.now = some age ∧ age ≤ HealthState.staleLimit interval) := by
    intro state hstate hage
    obtain ⟨age, hage⟩ := Option.ne_none_iff_exists'.1 hage
    rw [hjudged state hstate, judge_eq_none_iff, HealthState.isStale_eq_false_iff, hage]
    simp [and_comm]
  refine ⟨?_, fun hages => ?_, fun state hstate hage hpid => ?_, fun state hstate hage => ⟨?_, ?_⟩,
    fun hclock state age hage => HealthState.le_staleLimit_iff hclock hage⟩
  · rcases failure_runStatus_cases terminal hload with hnone | ⟨message, hsome⟩
    · exact .inl ⟨hnone, by rw [Outcome.exitCode, hnone]⟩
    · exact .inr ⟨message, hsome, by rw [Outcome.exitCode, hsome]; rfl⟩
  · constructor
    · intro hnone
      obtain ⟨state, hstate⟩ := exists_isOn_of_failure_eq_none hload hnone
      exact ⟨state, hstate, (hreadable state hstate (hages state hstate)).1 hnone⟩
    · rintro ⟨state, hstate, hpasses⟩
      exact (hreadable state hstate (hages state hstate)).2 hpasses
  · rw [hreadable state hstate hage, HealthState.signalTarget_eq_ok_iff]
    simp [hpid]
  · rw [hjudged state hstate, judge_eq_none_iff, HealthState.isStale_eq_false_iff, hage]
    simp
  · intro pid hpid
    obtain ⟨-, -, age, hsome, -⟩ := HealthState.signalTarget_eq_ok_iff.1 hpid
    cases hage.symm.trans hsome

/-! ### A machine with a state -/

/-- A machine whose state file is `s.json` and holds a state. -/
def machineWith (state : HealthState) : Machine :=
  { blank with
    environ := .ofList [("QGM_PATHS_STATE_FILE", "s.json")]
    disk := .ofFile "s.json" state.toJson.pretty.toUTF8 }

/-- Show the status, with the usual configuration file. -/
def statusInvocation : Invocation := ⟨none, true, false, .status⟩

theorem load_machineWith (state : HealthState) :
    ∃ settings, (Settings.load (m := StateM Machine) none (machineWith state)).1 = .ok settings ∧
      settings.paths.stateFile = "s.json" := by
  have hpath : (Settings.load (m := StateM Machine) none (machineWith state)).1.toOption.map
      (·.paths.stateFile) = some "s.json" := by
    with_unfolding_all rfl
  generalize (Settings.load (m := StateM Machine) none (machineWith state)).1 = loaded at hpath
  cases loaded with
  | error fault => cases hpath
  | ok settings => exact ⟨settings, rfl, Option.some.inj hpath⟩

theorem isOn_machineWith {state : HealthState}
    (hread : HealthState.ofText? state.toJson.pretty = some state) :
    state.IsOn (machineWith state) "s.json" := by
  refine ⟨state.toJson.pretty, HealthState.textOn_of_shows ⟨rfl, ?_⟩, hread⟩
  with_unfolding_all rfl

/-- A healthy state that was written at some time and has no queues. -/
def writtenAt (lastUpdated : String) : HealthState := { HealthState.firstState with lastUpdated }

theorem isOn_writtenAt (lastUpdated : String) :
    (writtenAt lastUpdated).IsOn (machineWith (writtenAt lastUpdated)) "s.json" :=
  isOn_machineWith ((HealthState.ofText?_pretty _).trans rfl)

/-- A state that was written a second ago passes, and signals are sent to its process. -/
theorem status_succeeds_on_freshState :
    let state := writtenAt "1969-12-31T23:59:59Z"
    let s := machineWith state
    ∃ settings, (Settings.load (m := StateM Machine) none s).1 = .ok settings ∧
      state.signalTarget s.now settings.monitor.pollIntervalMs = .ok 1 ∧
      (runStatus (m := StateM Machine) statusInvocation ⟨false, false⟩ s).1.exitCode = 0 := by
  intro state s
  obtain ⟨settings, hload, hpath⟩ := load_machineWith state
  have hon : state.IsOn s settings.paths.stateFile := hpath ▸ isOn_writtenAt _
  have hage : state.ageSeconds s.now = some 1 := by decide +kernel
  have hlimit : 1 ≤ HealthState.staleLimit settings.monitor.pollIntervalMs := le_max_right _ _
  have htarget : state.signalTarget s.now settings.monitor.pollIntervalMs = .ok 1 :=
    HealthState.signalTarget_eq_ok_iff.2 ⟨by decide, rfl, 1, hage, Int.ofNat_le.2 hlimit⟩
  obtain ⟨hcode, -, hpasses, -⟩ :=
    status_succeeds_iff (i := statusInvocation) ⟨false, false⟩ hload
  have hnone := (hpasses state hon (by rw [hage]; nofun) (by decide)).2 ⟨rfl, htarget⟩
  rcases hcode with ⟨-, hzero⟩ | ⟨message, hsome, -⟩
  · exact ⟨settings, hload, htarget, hzero⟩
  · cases hnone.symm.trans hsome

/-- A state that does not say when it was written passes, though no signals are sent to its
process. -/
theorem status_passes_unreadable_time :
    let state := writtenAt "garbage"
    let s := machineWith state
    ∃ settings, (Settings.load (m := StateM Machine) none s).1 = .ok settings ∧
      (runStatus (m := StateM Machine) statusInvocation ⟨false, false⟩ s).1.exitCode = 0 ∧
      (¬∃ found : HealthState, found.IsOn s settings.paths.stateFile ∧
        ∃ age, found.ageSeconds s.now = some age) ∧
      ∀ pid, state.signalTarget s.now settings.monitor.pollIntervalMs ≠ .ok pid := by
  intro state s
  obtain ⟨settings, hload, hpath⟩ := load_machineWith state
  have hon : state.IsOn s settings.paths.stateFile := hpath ▸ isOn_writtenAt _
  have hage : state.ageSeconds s.now = none := by decide +kernel
  have hnone : (runStatus (m := StateM Machine) statusInvocation ⟨false, false⟩ s).1.failure =
      none := by
    rw [failure_of_isOn (i := statusInvocation) hload hon, judge_eq_none_iff,
      HealthState.isStale_eq_false_iff, hage]
    exact ⟨nofun, rfl⟩
  refine ⟨settings, hload, by rw [Outcome.exitCode, hnone], ?_, fun pid hpid => ?_⟩
  · rintro ⟨found, hfound, age, hsome⟩
    rw [hfound.unique hon, hage] at hsome
    cases hsome
  · obtain ⟨-, -, age, hsome, -⟩ := HealthState.signalTarget_eq_ok_iff.1 hpid
    cases hage.symm.trans hsome

end

end Command

end Backlog
