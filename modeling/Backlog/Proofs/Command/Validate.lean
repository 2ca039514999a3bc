import Backlog.Proofs.Host.Files
import Backlog.Proofs.Service.Reload
import Backlog.Proofs.Settings.Sound
import Backlog.Command.Run

/-!
# What the check of the settings is good for

The command that checks the settings succeeds exactly if they can be loaded
(`failure_runConfigValidate`), and settings that were loaded are sound.  Nothing is left to
complain about then: a daemon starts, a running one takes the settings over, and a replay runs,
unless its log cannot be read.
-/

namespace Backlog

/-- Sound settings are enough for a replay, whatever is in its log. -/
theorem Settings.IsSound.replays {t : Settings} (h : t.IsSound) (records : List SampleRecord)
    (active : Bool) : ∃ report, replay t.monitor records active = .ok report := by
  obtain ⟨m, hstart⟩ := h.starts
  rw [replay, hstart]
  exact ⟨_, rfl⟩

namespace SampleLog

theorem readLines_ne_invalidConfig {number : Nat} {lines : List (List UInt8)}
    {cause : SettingFault} : readLines number lines ≠ .error (.invalidConfig cause) := by
  induction lines generalizing number with
  | nil => nofun
  | cons bytes rest ih =>
      rw [readLines]
      split
      · nofun
      · split
        · nofun
        · exact ih
        · intro h
          cases hrest : readLines (number + 1) rest with
          | ok records =>
              rw [hrest] at h
              cases h
          | error fault =>
              rw [hrest] at h
              cases h
              exact ih hrest

/-- A log that cannot be read is no fault of the settings. -/
theorem load_ne_invalidConfig {σ : Type} [Host (StateM σ)] {file : String} {s : σ}
    {cause : SettingFault} :
    (load (m := StateM σ) file s).1 ≠ .error (.invalidConfig cause) := by
  rw [load, StateM.bind_apply]
  cases (Host.read (m := StateM σ) file s).1 with
  | ok bytes => exact readLines_ne_invalidConfig
  | error fault =>
      dsimp only
      split <;> nofun

end SampleLog

/-- A reload that loads sound settings has no reason to reject them. -/
theorem Daemon.reload_of_loadedAgain {σ : Type} [Host (StateM σ)] {d : Daemon (StateM σ)} {s : σ}
    {t : Settings} (h : d.loadedAgain s = .ok t) :
    (d.reload s).1 = d ∨ (d.reload s).1 = d.adopting t := by
  rw [reload_fst, h]
  dsimp only
  split
  · exact .inl rfl
  · exact .inr rfl

namespace Command

section

variable {σ : Type} [Host (StateM σ)] {i : Invocation} {terminal : Terminal} {s : σ}
  {t : Settings}

/-- The check fails with the fault of the loading, and with no other. -/
theorem failure_runConfigValidate :
    (runConfigValidate (m := StateM σ) i terminal s).1.failure =
      match (Settings.load (m := StateM σ) i.config s).1 with
      | .ok _ => none
      | .error fault => some (.ofFault fault) := by
  rw [runConfigValidate, StateM.bind_apply, StateM.bind_apply]
  cases (Settings.load (m := StateM σ) i.config s).1 <;>
    cases (modeOf (m := StateM σ) i terminal _).1 <;> rfl

theorem runConfigValidate_succeeds_iff :
    (runConfigValidate (m := StateM σ) i terminal s).1.failure = none ↔
      ∃ t, (Settings.load (m := StateM σ) i.config s).1 = .ok t := by
  rw [failure_runConfigValidate]
  cases (Settings.load (m := StateM σ) i.config s).1 <;> simp

/-- A daemon starts under sound settings. -/
theorem exists_startDaemon (hload : (Settings.load (m := StateM σ) i.config s).1 = .ok t) :
    ∃ session, (startDaemon (m := StateM σ) i s).1 = .ok session := by
  obtain ⟨m, hstart⟩ := (Settings.isSound_of_load hload).starts
  rw [startDaemon, StateM.bind_apply, hload]
  dsimp only
  rw [Session.start, StateM.bind_apply, Daemon.start_eq_ok_iff.2 ⟨m, hstart, rfl⟩]
  exact ⟨_, rfl⟩

/-- A replay under sound settings fails with its log, or not at all. -/
theorem failure_runReplay (hload : (Settings.load (m := StateM σ) i.config s).1 = .ok t)
    (file : String) (active : Bool) :
    (runReplay (m := StateM σ) i terminal file active s).1.failure =
      match (SampleLog.load (m := StateM σ) file
        (Settings.load (m := StateM σ) i.config s).2).1 with
      | .ok _ => none
      | .error fault => some (.ofFault fault) := by
  rw [runReplay, StateM.bind_apply, hload]
  dsimp only
  rw [StateM.bind_apply]
  cases (SampleLog.load (m := StateM σ) file _).1 with
  | error fault => rfl
  | ok records =>
      obtain ⟨report, hreport⟩ :=
        (Settings.isSound_of_load hload).replays records (active || t.monitor.startActive)
      dsimp only
      rw [hreport]
      dsimp only
      rw [StateM.bind_apply]
      cases (modeOf (m := StateM σ) i terminal _).1 <;> rfl

/-- **Settings that pass the check are never refused afterwards.**  The check passes exactly if
the settings can be loaded, and then, whatever is in the file and in the variables,

* the ids of the queues are filled, without blanks at either end, and distinct, rounds are some
  time apart, a monitor starts under the settings, and any monitor takes them over;
* a daemon starts under the settings;
* a running daemon that loads them again keeps or adopts them;
* a replay succeeds, or its log cannot be read. -/
theorem valid_settings_are_never_refused (i : Invocation) (terminal : Terminal) (s : σ) :
    ((runConfigValidate (m := StateM σ) i terminal s).1.failure = none ↔
      ∃ t, (Settings.load (m := StateM σ) i.config s).1 = .ok t) ∧
    ∀ t, (Settings.load (m := StateM σ) i.config s).1 = .ok t →
      ((∀ id ∈ t.sources.queues, id ≠ "" ∧ Text.IsTrimmed id) ∧ t.sources.queues.Nodup ∧
        0 < t.monitor.pollIntervalMs ∧ (∃ m, Monitor.start t.monitor = .ok m) ∧
        ∀ m : Monitor Float, ∃ m', m.reconfigure t.monitor = .ok m') ∧
      (∃ session, (startDaemon (m := StateM σ) i s).1 = .ok session) ∧
      (∀ (d : Daemon (StateM σ)) (s' : σ), d.loadedAgain s' = .ok t →
        (d.reload s').1 = d ∨ (d.reload s').1 = d.adopting t) ∧
      ∀ file active, (runReplay (m := StateM σ) i terminal file active s).1.failure = none ∨
        ∃ fault, (∀ cause, fault ≠ .invalidConfig cause) ∧
          (runReplay (m := StateM σ) i terminal file active s).1.failure =
            some (.ofFault fault) := by
  refine ⟨runConfigValidate_succeeds_iff, fun t hload => ?_⟩
  have hsound := Settings.isSound_of_load hload
  refine ⟨⟨hsound.named, hsound.distinct, hsound.polls, hsound.starts, hsound.reconfigures⟩,
    exists_startDaemon hload, fun d s' => Daemon.reload_of_loadedAgain, fun file active => ?_⟩
  rw [failure_runReplay hload]
  cases hlog : (SampleLog.load (m := StateM σ) file
    (Settings.load (m := StateM σ) i.config s).2).1 with
  | ok records => exact .inl rfl
  | error fault =>
      refine .inr ⟨fault, ?_, rfl⟩
      rintro cause rfl
      exact SampleLog.load_ne_invalidConfig hlog

end

/-- A machine with a file that names two queues, one with blanks around it, and an empty id. -/
def paddedMachine : Machine :=
  { Machine.blank with
    disk := .ofFile "c.toml"
      "sources.queues = [\x22 orders \x22, \x22billing\x22, \x22\x22]".toUTF8 }

/-- Check the settings in the file of that machine. -/
def validateInvocation : Invocation := ⟨some "c.toml", true, false, .configValidate⟩

theorem valid_settings_on_paddedMachine :
    ∃ t, (Settings.load (m := StateM Machine) (some "c.toml") paddedMachine).1 = .ok t ∧
      t.sources.queues = ["orders", "billing"] ∧ t.sources.queues.Nodup ∧
      (runConfigValidate (m := StateM Machine) validateInvocation ⟨false, false⟩
        paddedMachine).1.failure = none ∧
      ∃ session, (startDaemon (m := StateM Machine) validateInvocation paddedMachine).1 =
        .ok session := by
  have hqueues : (Settings.load (m := StateM Machine) (some "c.toml")
      paddedMachine).1.toOption.map (·.sources.queues) = some ["orders", "billing"] := by
    decide +kernel
  obtain ⟨hvalid, hnever⟩ := valid_settings_are_never_refused (σ := Machine) validateInvocation
    ⟨false, false⟩ paddedMachine
  obtain ⟨t, hload, hids⟩ := exists_of_toOption hqueues
  obtain ⟨⟨-, hdistinct, -⟩, hsession, -⟩ := hnever t hload
  exact ⟨t, hload, hids, hdistinct, hvalid.2 ⟨t, hload⟩, hsession⟩

end Command

end Backlog
