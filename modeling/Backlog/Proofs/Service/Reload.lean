import Backlog.Proofs.Settings.Fingerprint
import Backlog.Proofs.Settings.Load

/-!
# Reloading the settings

A daemon that loads its settings again takes all of them over, or none
(`reload_all_or_nothing`): what `Settings.load` lets through the monitor does not reject.

If nothing has changed, then the settings are the same again (`reload_again`), with one
exception.  The usual file may be missing when the daemon starts, but it is asked for by its
path from then on, and a file that was asked for has to be there.

Whether anything has changed is judged by the fingerprints, which can agree by chance.  For a
single changed byte they never do (`one_byte_is_noticed`).
-/

namespace Backlog

namespace Daemon

open Settings Machine

section

variable {σ : Type} [Host (StateM σ)]

/-- The daemon with other settings: the queues it knows go on as they were, under the new
policy. -/
def adopting {m : Type → Type} [Monad m] [Host m] (d : Daemon m) (settings : Settings) :
    Daemon m :=
  { d with
    settings
    monitor :=
      { d.monitor with
        settings := settings.monitor
        queues := d.monitor.queues.map (·.withPolicy settings.monitor.growthPolicy) }
    sources :=
      if hasSameSources settings.sources d.settings.sources then d.sources
      else sourcesOf settings
    mailbox := d.mailbox.send (.configReloaded (reloadDetails settings)) }

/-- What a daemon finds that loads its settings again, after it has said so. -/
def loadedAgain (d : Daemon (StateM σ)) (s : σ) : Except Fault Settings :=
  (Settings.load (m := StateM σ) (some d.settings.paths.configFile)
    (say (m := StateM σ) "config reload requested (SIGHUP)" s).2).1

theorem reconfigure_of_load {path : Option String} {s : σ} {settings : Settings}
    (h : (Settings.load (m := StateM σ) path s).1 = .ok settings) (d : Daemon (StateM σ)) :
    d.monitor.reconfigure settings.monitor = .ok (d.adopting settings).monitor :=
  Monitor.reconfigure_eq_ok_iff.2 ⟨isAccepted_of_load h, rfl⟩

theorem reload_apply (d : Daemon (StateM σ)) (s : σ) :
    d.reload s =
      let asked := (say (m := StateM σ) "config reload requested (SIGHUP)" s).2
      let left := (Settings.load (m := StateM σ) (some d.settings.paths.configFile) asked).2
      match d.loadedAgain s with
      | .error fault =>
        (d.send (.error fault.code ("config reload failed: " ++ fault.message)),
          (say (m := StateM σ) ("config reload failed: " ++ fault.message) left).2)
      | .ok settings =>
        if settings.fingerprint = d.settings.fingerprint then
          (d, (say (m := StateM σ) "config unchanged, skipping reload" left).2)
        else
          (d.adopting settings,
            (say (m := StateM σ) ("config reloaded: " ++ reloadDetails settings) left).2) := by
  have hreconfigure (settings : Settings) (h : d.loadedAgain s = .ok settings) :=
    reconfigure_of_load h d
  unfold loadedAgain at hreconfigure ⊢
  simp only [reload, StateM.bind_apply]
  generalize Settings.load (m := StateM σ) (some d.settings.paths.configFile) _ = loaded
    at hreconfigure ⊢
  obtain ⟨outcome, left⟩ := loaded
  cases outcome with
  | error fault => rfl
  | ok settings =>
      by_cases hsame : settings.fingerprint = d.settings.fingerprint
      · simp only [if_pos hsame]
        rfl
      · simp only [if_neg hsame, hreconfigure settings rfl]
        rfl

theorem reload_fst (d : Daemon (StateM σ)) (s : σ) :
    (d.reload s).1 =
      match d.loadedAgain s with
      | .error fault =>
        d.send (.error fault.code ("config reload failed: " ++ fault.message))
      | .ok settings =>
        if settings.fingerprint = d.settings.fingerprint then d else d.adopting settings := by
  rw [reload_apply]
  cases d.loadedAgain s with
  | error fault => rfl
  | ok settings =>
      dsimp only
      split <;> rfl

/-- **A reload is all or nothing.**  If the settings cannot be loaded, or are those that the
daemon has, then the daemon stays as it is and sends one error, or nothing.  Otherwise the
monitor accepts the settings; the daemon and the monitor have them as they are, every queue has
the new policy and all else that was known about it, and one event tells about them. -/
theorem reload_all_or_nothing (d : Daemon (StateM σ)) (s : σ) :
    match d.loadedAgain s with
    | .error fault =>
      (d.reload s).1 = d.send (.error fault.code ("config reload failed: " ++ fault.message))
    | .ok settings =>
      if settings.fingerprint = d.settings.fingerprint then (d.reload s).1 = d
      else
        (d.monitor.reconfigure settings.monitor).isOk = true ∧
        (∀ queue, (d.reload s).1.monitor.queues.find? queue =
          (d.monitor.queues.find? queue).map
            fun t => { t with policy := settings.monitor.growthPolicy }) ∧
        (d.reload s).1 =
          { d with
            settings
            monitor :=
              { d.monitor with
                settings := settings.monitor
                queues := d.monitor.queues.map (·.withPolicy settings.monitor.growthPolicy) }
            sources :=
              if hasSameSources settings.sources d.settings.sources then d.sources
              else sourcesOf settings
            mailbox := d.mailbox.send (.configReloaded (reloadDetails settings)) } := by
  have hafter := d.reload_fst s
  cases hloaded : d.loadedAgain s with
  | error fault =>
      rw [hloaded] at hafter
      exact hafter
  | ok settings =>
      rw [hloaded] at hafter
      dsimp only at hafter ⊢
      by_cases hsame : settings.fingerprint = d.settings.fingerprint
      · rw [if_pos hsame] at hafter ⊢
        exact hafter
      · rw [if_neg hsame] at hafter ⊢
        refine ⟨?_, fun queue => ?_, hafter⟩
        · rw [reconfigure_of_load hloaded d]
          rfl
        · rw [hafter]
          exact Table.find?_map _ _ queue

/-- **A single changed byte is noticed.**  Two rows of bytes of one length with different bytes in
exactly one place, whichever place and however long they are, have different hashes, and the
sixteen digits of these are different.  So settings whose JSON text differs in a single byte from
that of the settings in force are never taken for unchanged: a daemon that loads them adopts
them. -/
theorem one_byte_is_noticed :
    (∀ xs ys : List UInt8, Fingerprint.DifferOnce xs ys →
      Fingerprint.hash xs ≠ Fingerprint.hash ys ∧
        Fingerprint.text (Fingerprint.hash xs) ≠ Fingerprint.text (Fingerprint.hash ys) ∧
        (Fingerprint.text (Fingerprint.hash xs)).length = 16 ∧
        (Fingerprint.text (Fingerprint.hash ys)).length = 16) ∧
    ∀ {σ : Type} [Host (StateM σ)] (d : Daemon (StateM σ)) (s : σ) (settings : Settings),
      d.loadedAgain s = .ok settings →
      Fingerprint.DifferOnce settings.canonicalBytes d.settings.canonicalBytes →
        settings.fingerprint ≠ d.settings.fingerprint ∧ (d.reload s).1 = d.adopting settings := by
  constructor
  · intro xs ys h
    have hhash := Fingerprint.hash_ne h
    exact ⟨hhash, fun htext => hhash (Fingerprint.text_injective htext),
      Fingerprint.length_text _, Fingerprint.length_text _⟩
  · intro σ _ d s settings hloaded h
    have hchanged := Settings.fingerprint_ne h
    refine ⟨hchanged, ?_⟩
    rw [reload_fst, hloaded]
    exact if_neg hchanged

end

/-! ## With nothing changed -/

section

variable {s s' : Machine} {path : Option String} {settings : Settings}

theorem sameFile_say (text file : String) (s : Machine) :
    SameFile file s (say (m := StateM Machine) text s).2 :=
  .of_scene (scene_warn ("[QGM-DAEMON] " ++ text) s)

/-- **Settings that are loaded again are the same**, and the daemon that has them stays as it
is, if they came from a file.  A daemon that started without one sends an error. -/
theorem reload_again {d : Daemon (StateM Machine)}
    (hload : (Settings.load (m := StateM Machine) path s).1 = .ok settings)
    (hsettings : d.settings = settings) (hsame : SameFile settings.paths.configFile s s') :
    (path.isSome ∨ s.disk.isThere s.workingDir settings.paths.configFile = true →
      (Settings.load (m := StateM Machine) (some settings.paths.configFile) s').1 =
          .ok settings ∧
        (d.reload s').1 = d) ∧
    (path = none ∧ s.disk.isThere s.workingDir settings.paths.configFile = false →
      (Settings.load (m := StateM Machine) (some settings.paths.configFile) s').1 =
          .error (.missingConfig settings.paths.configFile) ∧
        (d.reload s').1 = d.send (.error "QGM-1002" ("config reload failed: "
          ++ (Fault.missingConfig settings.paths.configFile).message))) := by
  subst hsettings
  have hsaid := hsame.trans (sameFile_say "config reload requested (SIGHUP)" _ s')
  constructor
  · intro hfile
    have hthere : s.disk.isThere s.workingDir d.settings.paths.configFile = true := by
      rcases hfile with hgiven | hthere
      · obtain ⟨file, rfl⟩ := Option.isSome_iff_exists.1 hgiven
        rw [configFile_of_load hload]
        exact isThere_of_load hload
      · exact hthere
    refine ⟨load_again hload hsame hthere, ?_⟩
    rw [reload_fst, loadedAgain, load_again hload hsaid hthere]
    exact if_pos rfl
  · rintro ⟨-, hmissing⟩
    refine ⟨load_again_of_missing hsame hmissing, ?_⟩
    rw [reload_fst, loadedAgain, load_again_of_missing hsaid hmissing]
    rfl

/-- A machine with a home directory and an empty disk. -/
def homeMachine : Machine := { blank with environ := .ofList [("HOME", "h")] }

/-- A machine with a file that sets nothing. -/
def filedMachine : Machine :=
  { homeMachine with disk := (Disk.empty.addFile Disk.root "c.toml" .empty).1 }

/-- A daemon with some settings that has nothing to watch. -/
def idle (settings : Settings) : Daemon (StateM Machine) :=
  fresh settings ⟨true, settings.monitor, .empty, .pending true⟩ [] ⟨0⟩ 0

theorem reload_again_on_filedMachine :
    ∃ settings, (Settings.load (m := StateM Machine) (some "c.toml") filedMachine).1 =
        .ok settings ∧
      (Settings.load (m := StateM Machine) (some settings.paths.configFile) filedMachine).1 =
        .ok settings ∧
      ((idle settings).reload filedMachine).1 = idle settings := by
  have hloads : (Settings.load (m := StateM Machine) (some "c.toml") filedMachine).1.isOk =
      true := by
    decide +kernel
  obtain ⟨settings, hload⟩ := exists_of_isOk hloads
  obtain ⟨hfiled, -⟩ := reload_again (d := idle settings) hload rfl (.of_scene rfl)
  exact ⟨settings, hload, hfiled (.inl rfl)⟩

/-- Without a file the usual settings are loaded, but not loaded again. -/
theorem not_reload_again_on_homeMachine :
    let told : Event := .error "QGM-1002"
      "config reload failed: [QGM-1002] missing configuration file: h/.config/qgm/config.toml"
    ∃ settings, (Settings.load (m := StateM Machine) none homeMachine).1 = .ok settings ∧
      (Settings.load (m := StateM Machine) (some settings.paths.configFile) homeMachine).1 =
        .error (.missingConfig "h/.config/qgm/config.toml") ∧
      ((idle settings).reload homeMachine).1 = (idle settings).send told := by
  intro told
  have hloads : (Settings.load (m := StateM Machine) none homeMachine).1.isOk = true := by
    decide +kernel
  obtain ⟨settings, hload⟩ := exists_of_isOk hloads
  have hfile : settings.paths.configFile = "h/.config/qgm/config.toml" := by
    obtain ⟨read, -, hcomplete⟩ := load_eq_ok_iff.1 hload
    rw [configFile_of_complete hcomplete]
    decide +kernel
  have hmissing : homeMachine.disk.isThere homeMachine.workingDir settings.paths.configFile =
      false := by
    rw [hfile]
    decide +kernel
  refine ⟨settings, hload, ?_, ?_⟩
  · rw [load_again_of_missing (.of_scene rfl) hmissing, hfile]
  · rw [reload_fst, loadedAgain]
    have hmissed := load_again_of_missing (sameFile_say "config reload requested (SIGHUP)"
      settings.paths.configFile homeMachine) hmissing
    rw [show (idle settings).settings = settings from rfl, hmissed, hfile]
    rfl

/-! ## With a byte changed -/

/-- The settings that are loaded on `filedMachine`. -/
def filedSettings : Settings :=
  (Settings.load (m := StateM Machine) (some "c.toml") filedMachine).1.toOption.getD (.standard "h")

theorem load_filedMachine :
    (Settings.load (m := StateM Machine) (some "c.toml") filedMachine).1 = .ok filedSettings := by
  have hloads : (Settings.load (m := StateM Machine) (some "c.toml") filedMachine).1.isOk =
      true := by
    decide +kernel
  obtain ⟨settings, hload⟩ := exists_of_isOk hloads
  rw [filedSettings, hload]
  rfl

/-- Settings with another window, as they may have been before. -/
def widerSettings : Settings :=
  { filedSettings with monitor := { filedSettings.monitor with windowSize := 61 } }

theorem differOnce_widerSettings :
    Fingerprint.DifferOnce filedSettings.canonicalBytes widerSettings.canonicalBytes := by
  have hsize : filedSettings.monitor.windowSize = 60 := by decide +kernel
  refine differOnce_windowSize ?_
  rw [hsize]
  decide +kernel

/-- The usual window of 60 is adopted in place of one of 61. -/
theorem one_byte_is_noticed_on_filedMachine :
    (Fingerprint.DifferOnce [0x36, 0x30] [0x36, 0x31] ∧
      Fingerprint.hash [0x36, 0x30] ≠ Fingerprint.hash [0x36, 0x31]) ∧
    (idle widerSettings).loadedAgain filedMachine = .ok filedSettings ∧
    Fingerprint.DifferOnce filedSettings.canonicalBytes widerSettings.canonicalBytes ∧
    ((idle widerSettings).reload filedMachine).1 = (idle widerSettings).adopting filedSettings := by
  obtain ⟨hbytes, hreload⟩ := one_byte_is_noticed
  have hdigits : Fingerprint.DifferOnce [0x36, 0x30] [0x36, 0x31] := by decide
  have hthere : filedMachine.disk.isThere filedMachine.workingDir filedSettings.paths.configFile =
      true := by
    rw [configFile_of_load load_filedMachine]
    exact isThere_of_load load_filedMachine
  have hloaded : (idle widerSettings).loadedAgain filedMachine = .ok filedSettings :=
    load_again load_filedMachine (sameFile_say _ _ filedMachine) hthere
  exact ⟨⟨hdigits, (hbytes _ _ hdigits).1⟩, hloaded, differOnce_widerSettings,
    (hreload _ _ _ hloaded differOnce_widerSettings).2⟩

end

end Daemon

end Backlog
