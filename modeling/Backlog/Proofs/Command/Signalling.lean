import Backlog.Proofs.Command.Status

/-!
# Whom signals reach

The commands that switch the check on and off send a signal to the process that the state file
names.  A wrong number would do harm: zero and numbers beyond the signed range stand for groups of
processes, and the number in an old file may be that of another process by now.  So four checks
have to be passed, in the reading of the file, in `HealthState.signalTarget` and in `signalDaemon`.
Together they say when a state is one that signals are sent for (`Addresses`).  There is at most one
such state, and for it exactly one signal is sent; without it none is, and the command fails
(`toggle_signals_recorded_process`).
-/

namespace Backlog

open Machine

theorem Machine.Spoke.sent {s s' : Machine} (h : Spoke s s') : s'.sent = s.sent := by
  obtain ⟨_, _, _, rfl⟩ := h
  rfl

namespace HealthState

theorem isOn_of_spoke {state : HealthState} {file : String} {s s' : Machine} (h : Spoke s s') :
    state.IsOn s' file ↔ state.IsOn s file := by
  rw [IsOn, IsOn, h.textOn]

/-- What is loaded is what is on the file. -/
theorem load_eq_ok_iff {state : HealthState} {file : String} {pollIntervalMs : Nat} {s : Machine} :
    (load (m := StateM Machine) file pollIntervalMs s).1 = .ok state ↔ state.IsOn s file := by
  unfold IsOn
  cases htext : s.textOn file with
  | error fault =>
      rw [load_of_fault htext]
      simp
  | ok text =>
      rw [load_of_textOn _ htext]
      simp only [Except.ok.injEq, exists_eq_left']
      cases ofText? text <;> simp

end HealthState

namespace Command

/-- A state on a machine is one that signals are sent for: it is in the state file of the settings,
it says in a way that can be read when it was written, it is not stale for the interval of the
settings, and the number of its process is in the positive part of the signed range. -/
structure Addresses (s : Machine) (settings : Settings) (state : HealthState) : Prop where
  isOn : state.IsOn s settings.paths.stateFile
  isDated : ∃ m, Calendar.moment? state.lastUpdated = some m
  isFresh : state.isStale s.now settings.monitor.pollIntervalMs = false
  positive : 1 ≤ state.pid.toNat
  bounded : state.pid.toNat ≤ 2 ^ 31 - 1

variable {s : Machine} {settings : Settings} {state : HealthState} {i : Invocation}
  {terminal : Terminal} {signal : Signal} {name : String}

theorem addresses_iff :
    Addresses s settings state ↔ state.IsOn s settings.paths.stateFile ∧
      state.signalTarget s.now settings.monitor.pollIntervalMs = .ok state.pid ∧
      ¬twoTo 31 ≤ state.pid.toNat := by
  have hrange : twoTo 31 = 2147483648 := by decide
  have hzero : state.pid ≠ 0 ↔ 1 ≤ state.pid.toNat := by
    rw [Nat.one_le_iff_ne_zero, ne_eq, ne_eq, ← UInt32.toNat_inj]
    rfl
  have hage : (∃ age, state.ageSeconds s.now = some age ∧
        age ≤ HealthState.staleLimit settings.monitor.pollIntervalMs) ↔
      (∃ m, Calendar.moment? state.lastUpdated = some m) ∧
        state.isStale s.now settings.monitor.pollIntervalMs = false := by
    rw [HealthState.isStale_eq_false_iff, HealthState.ageSeconds]
    cases Calendar.moment? state.lastUpdated <;> simp
  rw [HealthState.signalTarget_eq_ok_iff, hage, hzero]
  constructor
  · rintro ⟨hon, hdated, hfresh, hpositive, hbounded⟩
    exact ⟨hon, ⟨hpositive, rfl, hdated, hfresh⟩, by omega⟩
  · rintro ⟨hon, ⟨hpositive, -, hdated, hfresh⟩, hbounded⟩
    exact ⟨hon, hdated, hfresh, hpositive, by omega⟩

/-! ## Sending -/

/-- A process number beyond the signed range is sent nothing. -/
theorem signalDaemon_of_le {pid : UInt32} (h : twoTo 31 ≤ pid.toNat) (signal : Signal)
    (s : Machine) : signalDaemon (m := StateM Machine) pid signal s =
      (.error (.signal pid "pid out of range"), s) := by
  rw [signalDaemon, if_pos h]
  rfl

/-- Any other one is sent one signal, which may not find its process. -/
theorem sent_signalDaemon {pid : UInt32} (h : ¬twoTo 31 ≤ pid.toNat) (signal : Signal)
    (s : Machine) : (signalDaemon (m := StateM Machine) pid signal s).2.sent =
      s.sent ++ [(pid, signal)] := by
  have hkill : (Host.kill (m := StateM Machine) pid signal s).2.sent =
      s.sent ++ [(pid, signal)] := by
    change (if s.isListening ∧ pid = s.pid then _ else _ : Except String Unit × Machine).2.sent = _
    split <;> rfl
  rw [signalDaemon, if_neg h, StateM.bind_apply]
  cases (Host.kill (m := StateM Machine) pid signal s).1 <;> exact hkill

/-! ## The command -/

/-- The command failed without a signal. -/
def Refuses (s : Machine) (ended : Outcome × Machine) : Prop :=
  ended.2.sent = s.sent ∧ ended.1.failure ≠ none

theorem refuses_ofFault {s' : Machine} (h : Spoke s s') (fault : Fault) :
    Refuses s (.ofFault fault, s') := ⟨h.sent, nofun⟩

theorem refuses_of_load_error {fault : Fault}
    (hload : (Settings.load (m := StateM Machine) i.config s).1 = .error fault) :
    Refuses s (runToggle (m := StateM Machine) i terminal signal name s) := by
  rw [runToggle, StateM.bind_apply, hload]
  exact refuses_ofFault (Settings.speaks_load i.config s) fault

/-- With settings the command reads the state file next. -/
theorem refuses_of_not_isOn
    (hload : (Settings.load (m := StateM Machine) i.config s).1 = .ok settings)
    (hnone : ¬∃ state : HealthState, state.IsOn s settings.paths.stateFile) :
    Refuses s (runToggle (m := StateM Machine) i terminal signal name s) := by
  have hspoke := Settings.speaks_load i.config s
  rw [runToggle, StateM.bind_apply, hload]
  dsimp only
  generalize (Settings.load (m := StateM Machine) i.config s).2 = s₁ at hspoke ⊢
  have hread := HealthState.speaks_load settings.paths.stateFile settings.monitor.pollIntervalMs s₁
  rw [StateM.bind_apply]
  cases hstate : (HealthState.load (m := StateM Machine) settings.paths.stateFile
    settings.monitor.pollIntervalMs s₁).1 with
  | error fault => exact refuses_ofFault (hspoke.trans hread) fault
  | ok state =>
      have hon : state.IsOn s₁ settings.paths.stateFile := HealthState.load_eq_ok_iff.1 hstate
      exact absurd ⟨state, (HealthState.isOn_of_spoke hspoke).1 hon⟩ hnone

/-- With a state the rest is a matter of that state. -/
theorem runToggle_of_isOn (terminal : Terminal) (signal : Signal) (name : String)
    (hload : (Settings.load (m := StateM Machine) i.config s).1 = .ok settings)
    (hon : state.IsOn s settings.paths.stateFile) :
    ∃ (s' : Machine) (goOn : UInt32 → Except Fault Unit → StateM Machine Outcome), Spoke s s' ∧
      runToggle (m := StateM Machine) i terminal signal name s =
        (match state.signalTarget s.now settings.monitor.pollIntervalMs with
        | .error fault => pure (Outcome.ofFault fault)
        | .ok pid => signalDaemon pid signal >>= goOn pid : StateM Machine Outcome) s' ∧
      (∀ pid fault, goOn pid (.error fault) = pure (Outcome.ofFault fault)) ∧
      ∀ pid answer t, (goOn pid answer t).2 = t := by
  have hspoke := Settings.speaks_load i.config s
  rw [runToggle, StateM.bind_apply, hload]
  dsimp only
  generalize (Settings.load (m := StateM Machine) i.config s).2 = s₁ at hspoke ⊢
  have hread := HealthState.speaks_load settings.paths.stateFile settings.monitor.pollIntervalMs s₁
  rw [StateM.bind_apply, HealthState.load_eq_ok_iff.2 ((HealthState.isOn_of_spoke hspoke).2 hon)]
  dsimp only
  generalize (HealthState.load (m := StateM Machine) settings.paths.stateFile
    settings.monitor.pollIntervalMs s₁).2 = s₂ at hread ⊢
  rw [← (hspoke.trans hread).now]
  refine ⟨s₂, _, hspoke.trans hread, rfl, fun _ _ => rfl, fun pid answer t => ?_⟩
  cases answer with
  | error fault => rfl
  | ok sent =>
      dsimp only
      rw [StateM.bind_apply]
      cases (modeOf (m := StateM Machine) i terminal t).1 <;> rfl

theorem sent_runToggle
    (hload : (Settings.load (m := StateM Machine) i.config s).1 = .ok settings)
    (haddresses : Addresses s settings state) :
    (runToggle (m := StateM Machine) i terminal signal name s).2.sent =
      s.sent ++ [(state.pid, signal)] := by
  obtain ⟨hon, htarget, hrange⟩ := addresses_iff.1 haddresses
  obtain ⟨s', goOn, hspoke, hrun, -, hquiet⟩ := runToggle_of_isOn terminal signal name hload hon
  rw [hrun, htarget]
  dsimp only
  rw [StateM.bind_apply, hquiet, sent_signalDaemon hrange, hspoke.sent]

theorem refuses_of_not_addresses
    (hload : (Settings.load (m := StateM Machine) i.config s).1 = .ok settings)
    (hon : state.IsOn s settings.paths.stateFile) (hother : ¬Addresses s settings state) :
    Refuses s (runToggle (m := StateM Machine) i terminal signal name s) := by
  obtain ⟨s', goOn, hspoke, hrun, hfailed, -⟩ := runToggle_of_isOn terminal signal name hload hon
  rw [hrun]
  cases htarget : state.signalTarget s.now settings.monitor.pollIntervalMs with
  | error fault => exact refuses_ofFault hspoke fault
  | ok pid =>
      obtain ⟨-, rfl, -⟩ := HealthState.signalTarget_eq_ok_iff.1 htarget
      have hrange : twoTo 31 ≤ state.pid.toNat := by
        by_contra hrange
        exact hother (addresses_iff.2 ⟨hon, htarget, hrange⟩)
      dsimp only
      rw [StateM.bind_apply, signalDaemon_of_le hrange]
      dsimp only
      rw [hfailed]
      exact refuses_ofFault hspoke _

/-- **Signals reach the process that the state file names, or none.**  The settings can be loaded
and the state file holds a state that signals are sent for: then one signal is sent, to the process
of this state, and its number is positive also when it is read as a signed one.  In all other cases
no signal is sent, and the command fails. -/
theorem toggle_signals_recorded_process (i : Invocation) (terminal : Terminal) (signal : Signal)
    (name : String) (s : Machine) :
    let ended := runToggle (m := StateM Machine) i terminal signal name s
    (∀ settings state, (Settings.load (m := StateM Machine) i.config s).1 = .ok settings →
      Addresses s settings state →
        ended.2.sent = s.sent ++ [(state.pid, signal)] ∧
          0 < state.pid.toInt32.toInt ∧ state.pid.toInt32.toInt = state.pid.toNat) ∧
    ((¬∃ settings state, (Settings.load (m := StateM Machine) i.config s).1 = .ok settings ∧
      Addresses s settings state) →
        ended.2.sent = s.sent ∧ ended.1.failure ≠ none) := by
  intro ended
  refine ⟨fun settings state hload haddresses => ⟨sent_runToggle hload haddresses, ?_⟩,
    fun hnone => ?_⟩
  · have hpositive := haddresses.positive
    have hbounded := haddresses.bounded
    have hsigned : state.pid.toInt32.toInt = state.pid.toNat :=
      BitVec.toInt_eq_toNat_of_lt (by change 2 * state.pid.toNat < 2 ^ 32; omega)
    exact ⟨by omega, hsigned⟩
  · cases hload : (Settings.load (m := StateM Machine) i.config s).1 with
    | error fault => exact refuses_of_load_error hload
    | ok settings =>
        by_cases hon : ∃ state : HealthState, state.IsOn s settings.paths.stateFile
        · obtain ⟨state, hon⟩ := hon
          exact refuses_of_not_addresses hload hon fun h => hnone ⟨settings, state, hload, h⟩
        · exact refuses_of_not_isOn hload hon

/-- Switch the check on, with the usual configuration file. -/
def activateInvocation : Invocation := ⟨none, true, false, .activate⟩

theorem addresses_writtenAt {settings : Settings} (hpath : settings.paths.stateFile = "s.json") :
    let state := writtenAt "1969-12-31T23:59:59Z"
    Addresses (machineWith state) settings state := by
  intro state
  have hage : state.ageSeconds (machineWith state).now = some 1 := by decide +kernel
  have hlimit : 1 ≤ HealthState.staleLimit settings.monitor.pollIntervalMs := le_max_right _ _
  have htarget : state.signalTarget (machineWith state).now settings.monitor.pollIntervalMs =
      .ok state.pid :=
    HealthState.signalTarget_eq_ok_iff.2 ⟨by decide, rfl, 1, hage, Int.ofNat_le.2 hlimit⟩
  exact addresses_iff.2 ⟨hpath ▸ isOn_writtenAt _, htarget, by decide⟩

theorem not_addresses_undated :
    ¬∃ settings state, (Settings.load (m := StateM Machine) none
        (machineWith (writtenAt "garbage"))).1 = .ok settings ∧
      Addresses (machineWith (writtenAt "garbage")) settings state := by
  rintro ⟨settings, state, hload, haddresses⟩
  obtain ⟨settings', hload', hpath⟩ := load_machineWith (writtenAt "garbage")
  cases hload.symm.trans hload'
  have hon : (writtenAt "garbage").IsOn (machineWith (writtenAt "garbage"))
      settings.paths.stateFile := hpath ▸ isOn_writtenAt _
  cases haddresses.isOn.unique hon
  obtain ⟨m, hm⟩ := haddresses.isDated
  have hunread : Calendar.moment? (writtenAt "garbage").lastUpdated = none := by decide +kernel
  cases hm.symm.trans hunread

/-- The process of a state that was written a second ago is sent one signal.  That of a state that
does not say when it was written is sent none. -/
theorem toggle_signals_recorded_process_on_freshState :
    let fresh := machineWith (writtenAt "1969-12-31T23:59:59Z")
    let undated := machineWith (writtenAt "garbage")
    (∃ settings, (Settings.load (m := StateM Machine) none fresh).1 = .ok settings ∧
      Addresses fresh settings (writtenAt "1969-12-31T23:59:59Z")) ∧
    (runToggle (m := StateM Machine) activateInvocation ⟨false, false⟩ .activate "activate"
      fresh).2.sent = [(1, .activate)] ∧
    (¬∃ settings state, (Settings.load (m := StateM Machine) none undated).1 = .ok settings ∧
      Addresses undated settings state) ∧
    (runToggle (m := StateM Machine) activateInvocation ⟨false, false⟩ .activate "activate"
      undated).2.sent = [] := by
  intro fresh undated
  obtain ⟨settings, hload, hpath⟩ := load_machineWith (writtenAt "1969-12-31T23:59:59Z")
  have haddresses := addresses_writtenAt hpath
  obtain ⟨hsends, -⟩ :=
    toggle_signals_recorded_process activateInvocation ⟨false, false⟩ .activate "activate" fresh
  obtain ⟨-, hrefuses⟩ :=
    toggle_signals_recorded_process activateInvocation ⟨false, false⟩ .activate "activate" undated
  exact ⟨⟨settings, hload, haddresses⟩, (hsends settings _ hload haddresses).1,
    not_addresses_undated, (hrefuses not_addresses_undated).1⟩

end Command

end Backlog
