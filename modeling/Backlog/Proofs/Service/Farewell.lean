import Backlog.Proofs.Host.Disk
import Backlog.Proofs.Host.Machine
import Backlog.Proofs.Service.Reload
import Backlog.Proofs.Service.World

/-!
# What a daemon leaves behind

The last thing a daemon does is to remove its state file.  It removes the one of its settings,
and only a loading changes those.  So nothing is left of a run in which no loading brought in
another path; after any other run, what an earlier path leads to stays, unless that is the same
file (`shutdown_clears`).
-/

namespace Backlog

open Machine

/-! ## A removal that works -/

namespace Machine

variable {s : Machine} {path : String}

/-- What a machine is after a removal of a state file that works: something was removed, or
there was nothing. -/
theorem clear_of_works (h : Works (.remove path) s)
    (hcleared : (HealthState.clear (m := StateM Machine) path s).1 = .ok ()) :
    (∃ disk, s.disk.remove s.workingDir path = .ok disk ∧
      (HealthState.clear (m := StateM Machine) path s).2 = { s with disk, steps := s.steps + 1 }) ∨
    s.disk.remove s.workingDir path = .error .notFound ∧
      (HealthState.clear (m := StateM Machine) path s).2 = { s with steps := s.steps + 1 } := by
  unfold HealthState.clear at hcleared ⊢
  rw [StateM.bind_apply, remove_of_works h] at hcleared ⊢
  cases hremoved : s.disk.remove s.workingDir path with
  | ok disk => exact .inl ⟨disk, rfl, rfl⟩
  | error fault =>
      rw [hremoved] at hcleared
      dsimp only at hcleared ⊢
      by_cases hnone : fault = .notFound
      · rw [if_pos hnone, hnone]
        exact .inr ⟨rfl, rfl⟩
      · rw [if_neg hnone] at hcleared
        cases hcleared

theorem loadState_of_read {fault : IoFault} (h : s.disk.read s.workingDir path = .error fault)
    (pollIntervalMs : Nat) :
    (HealthState.load (m := StateM Machine) path pollIntervalMs s).1 =
      .error (.stateUnavailable ("cannot read " ++ path ++ ": " ++ fault.message)) := by
  unfold HealthState.load
  rw [StateM.bind_apply, readText_apply, textOn, h]
  rfl

end Machine

/-! ## What changes the settings -/

namespace Daemon

variable {σ : Type} [Host (StateM σ)]

theorem settings_sendAll {m : Type → Type} (d : Daemon m) (events : List Event) :
    (d.sendAll events).settings = d.settings := by
  rw [sendAll_eq]

theorem settings_told {m : Type → Type} (d : Daemon m) : d.told.settings = d.settings :=
  d.settings_sendAll _

theorem settings_answered {m : Type → Type} (d : Daemon m) (request : Option MonitorStatus) :
    (d.answered request).settings = d.settings := by
  cases request with
  | none => rfl
  | some status =>
      unfold answered
      dsimp only
      split <;> rfl

end Daemon

namespace Loop

variable {σ : Type} [Host (StateM σ)]

/-- Only a loading changes the settings. -/
theorem settings_step {stage : Stage (StateM σ)} (h : stage ≠ .load) (d : Daemon (StateM σ))
    (s : σ) : (stage.step d s).1.2.2.settings = d.settings := by
  cases stage with
  | announce =>
      change (d.announce s).1.settings = _
      rw [Daemon.announce_fst]
      rfl
  | load => exact absurd rfl h
  | toggle =>
      change (d.applyToggle s).1.2.settings = _
      rw [Daemon.applyToggle_fst, Daemon.settings_answered]
  | answer deadline slices =>
      change (d.applyToggle s).1.2.settings = _
      rw [Daemon.applyToggle_fst, Daemon.settings_answered]
  | sample left readings =>
      cases left with
      | nil =>
          rw [Stage.step, StateM.bind_apply, Daemon.tell_fst, StateM.bind_apply, StateM.pure_apply,
            Daemon.persist_fst, Daemon.settings_sendAll, Daemon.settings_told]
      | cons source left => rfl
  | retire =>
      change (d.retire "signal" s).1.settings = _
      rw [Daemon.retire_fst]
  | head =>
      rw [Stage.step, StateM.bind_apply]
      split <;> rfl
  | wait deadline slices =>
      cases slices with
      | zero => rfl
      | succ slices =>
          rw [Stage.step, StateM.bind_apply]
          split <;> rfl
  | pause deadline slices =>
      rw [Stage.step, StateM.bind_apply]
      split <;> rfl
  | reload => rfl
  | tick => rfl
  | rest => rfl
  | done => rfl

end Loop

/-! ## The paths of a run -/

namespace World

variable {d : Daemon (StateM Machine)} {s : Machine} {moves : List Move}

/-- The path of the state file. -/
def statePath (w : World) : String := w.daemon.settings.paths.stateFile

/-- The path that the next step of the daemon brings in, if it loads the settings. -/
def loadsNext (w : World) : List String :=
  match w.stage with
  | .load => [w.advance.statePath]
  | _ => []

/-- The path that the next step of the daemon writes to, if it ends a round. -/
def writesNext (w : World) : List String :=
  match w.stage with
  | .sample [] _ => [w.statePath]
  | _ => []

/-- What the steps of the daemon bring along while the world moves. -/
def gather (look : World → List String) : World → List Move → List String
  | _, [] => []
  | w, move :: rest =>
    (match move with
      | .advance => look w
      | _ => []) ++ gather look (w.after move) rest

/-- The paths that the loadings of a run bring in. -/
def loadedPaths (w : World) (moves : List Move) : List String := w.gather loadsNext moves

/-- The paths that the rounds of a run write their states to. -/
def writtenPaths (w : World) (moves : List Move) : List String := w.gather writesNext moves

theorem statePath_advance (w : World) :
    w.advance.statePath = w.statePath ∨ w.advance.statePath ∈ w.loadsNext := by
  have hkept (h : w.stage ≠ .load) : w.advance.statePath = w.statePath :=
    congrArg (fun settings : Settings => settings.paths.stateFile)
      (Loop.settings_step h w.daemon w.machine)
  unfold loadsNext
  cases hstage : w.stage with
  | load => exact .inr List.mem_cons_self
  | _ =>
      rw [hstage] at hkept
      exact .inl (hkept nofun)

theorem mem_writesNext {w : World} {path : String} (h : path ∈ w.writesNext) :
    path = w.statePath := by
  unfold writesNext at h
  split at h
  · exact List.mem_singleton.1 h
  · cases h

/-- If all loadings bring in the path of the start, all rounds write to it. -/
theorem written_eq {w : World} {path : String} (hstart : w.statePath = path)
    (hloaded : ∀ p ∈ w.loadedPaths moves, p = path) :
    (∀ p ∈ w.writtenPaths moves, p = path) ∧ (w.run moves).statePath = path := by
  induction moves generalizing w with
  | nil => exact ⟨nofun, hstart⟩
  | cons move rest ih =>
      have hnext : (w.after move).statePath = path := by
        cases move with
        | advance =>
            rcases w.statePath_advance with hkept | hmem
            · exact hkept.trans hstart
            · exact hloaded _ (List.mem_append_left _ hmem)
        | _ => exact hstart
      obtain ⟨hwritten, hend⟩ := ih hnext fun p hp => hloaded p (List.mem_append_right _ hp)
      refine ⟨fun p hp => ?_, hend⟩
      rcases List.mem_append.1 hp with hp | hp
      · cases move with
        | advance => exact (mem_writesNext hp).trans hstart
        | _ => cases hp
      · exact hwritten p hp

/-! ## The end of a run -/

theorem advance_retire {w : World} (hretire : w.stage = .retire)
    (hcleared : (HealthState.clear (m := StateM Machine) w.statePath w.machine).1 = .ok ()) :
    w.advance.stage = .done ∧
      w.advance.machine = (HealthState.clear (m := StateM Machine) w.statePath w.machine).2 := by
  obtain ⟨stage, daemon, machine, history, collected⟩ := w
  subst hretire
  refine ⟨rfl, ?_⟩
  change (daemon.retire "signal" machine).2 = _
  change (HealthState.clear (m := StateM Machine) daemon.settings.paths.stateFile machine).1 = _
    at hcleared
  simp only [Daemon.retire, StateM.bind_apply]
  have huptime : (Host.uptime (m := StateM Machine) machine).2 = machine := rfl
  rw [huptime]
  change _ = (HealthState.clear (m := StateM Machine) daemon.settings.paths.stateFile machine).2
  dsimp only [Daemon.send]
  generalize HealthState.clear (m := StateM Machine) _ _ = cleared at hcleared ⊢
  obtain ⟨outcome, after⟩ := cleared
  cases hcleared
  rfl

/-- What a removal of a state file that works leaves on the disk. -/
theorem left_of_clear {s : Machine} {path : String} (h : Works (.remove path) s)
    (hcleared : (HealthState.clear (m := StateM Machine) path s).1 = .ok ()) :
    let after := (HealthState.clear (m := StateM Machine) path s).2
    (∃ directory name, Disk.Misses directory name
      (after.disk.locate .target after.workingDir path)) ∧
    (¬Disk.EndsAtLink (s.disk.locate .name s.workingDir path) →
      ∀ other, after.disk.isThere after.workingDir other = true ↔
        s.disk.isThere s.workingDir other = true ∧
          s.disk.locate .target s.workingDir other ≠ s.disk.locate .target s.workingDir path) := by
  rcases clear_of_works h hcleared with ⟨disk, hremoved, hafter⟩ | ⟨hremoved, hafter⟩
  · rw [hafter]
    exact ⟨Disk.misses_of_remove hremoved, Disk.isThere_remove hremoved⟩
  · rw [hafter]
    obtain ⟨directory, name, hmisses⟩ := Disk.misses_of_remove_notFound hremoved
    refine ⟨⟨directory, name, hmisses⟩, fun _ other => (and_iff_left_of_imp ?_).symm⟩
    -- something is at the other path, and nothing at this one
    intro hthere hsame
    rw [← hsame] at hmisses
    rw [Disk.isThere_of_misses hmisses] at hthere
    cases hthere

/-- **What is left of the state files when a daemon has ended.**  The last thing it did was to
remove one, and that worked.  Then nothing is at the path of its settings.  If no loading
brought in another path, nothing is at any path that a state was written to.  In any case what
was removed is all that is gone, also where another path leads to it. -/
theorem shutdown_clears {w : World} (hrun : (opening d s).run moves = w)
    (hretire : w.stage = .retire) (hworks : Works (.remove w.statePath) w.machine)
    (hcleared : (HealthState.clear (m := StateM Machine) w.statePath w.machine).1 = .ok ()) :
    let after := w.advance.machine
    w.advance.stage = .done ∧
      (after.disk.isThere after.workingDir w.statePath = false ∧
        ∀ pollIntervalMs, (HealthState.load (m := StateM Machine) w.statePath pollIntervalMs
          after).1 = .error (.stateUnavailable
            ("cannot read " ++ w.statePath ++ ": "
              ++ "No such file or directory (os error 2)"))) ∧
      ((∀ path ∈ (opening d s).loadedPaths moves, path = (opening d s).statePath) →
        ∀ path ∈ (opening d s).writtenPaths moves,
          after.disk.isThere after.workingDir path = false) ∧
      (¬Disk.EndsAtLink (w.machine.disk.locate .name w.machine.workingDir w.statePath) →
        ∀ path, after.disk.isThere after.workingDir path = true ↔
          w.machine.disk.isThere w.machine.workingDir path = true ∧
            w.machine.disk.locate .target w.machine.workingDir path ≠
              w.machine.disk.locate .target w.machine.workingDir w.statePath) := by
  intro after
  obtain ⟨hdone, hmachine⟩ := advance_retire hretire hcleared
  obtain ⟨⟨directory, name, hmisses⟩, hothers⟩ := left_of_clear hworks hcleared
  rw [← hmachine] at hmisses hothers
  have hgone : after.disk.isThere after.workingDir w.statePath = false :=
    Disk.isThere_of_misses hmisses
  refine ⟨hdone, ⟨hgone, fun pollIntervalMs => ?_⟩, fun hloaded path hpath => ?_, hothers⟩
  · have hmessage : IoFault.notFound.message = "No such file or directory (os error 2)" := by
      decide +kernel
    rw [← hmessage]
    exact loadState_of_read (Disk.read_of_misses hmisses) pollIntervalMs
  · obtain ⟨hwritten, hend⟩ := written_eq rfl hloaded
    rw [hrun] at hend
    rw [hwritten path hpath, ← hend]
    exact hgone

/-! ## Two runs -/

section

open Daemon

def atLoad : Loop.Stage (StateM Machine) → Bool
  | .load => true
  | _ => false

def atRetire : Loop.Stage (StateM Machine) → Bool
  | .retire => true
  | _ => false

theorem eq_load {stage : Loop.Stage (StateM Machine)} (h : atLoad stage = true) :
    stage = .load := by
  cases stage with
  | load => rfl
  | _ => cases h

theorem eq_retire {stage : Loop.Stage (StateM Machine)} (h : atRetire stage = true) :
    stage = .retire := by
  cases stage with
  | retire => rfl
  | _ => cases h

/-- Settings with a state file in the working directory. -/
def nearSettings : Settings :=
  { Settings.standard "h" with
    monitor := { briskSettings with pollIntervalMs := 1 }
    paths := ⟨"c.toml", "a.json", "a.jsonl"⟩ }

/-- One round, and a request to end. -/
def shortMoves : List Move :=
  List.replicate 6 .advance ++ .request .shutdown :: List.replicate 3 .advance

theorem shutdown_clears_after_round :
    let start := opening (idle nearSettings) filedMachine
    let w := start.run shortMoves
    let after := w.advance.machine
    w.stage = .retire ∧ start.writtenPaths shortMoves = ["a.json"] ∧
      w.machine.disk.isThere w.machine.workingDir "a.json" = true ∧
      after.disk.isThere after.workingDir "a.json" = false ∧
      after.disk.isThere after.workingDir "c.toml" = true := by
  intro start w after
  have hretire : w.stage = .retire := eq_retire (by decide +kernel)
  have hworks : Works (.remove w.statePath) w.machine := ⟨by decide +kernel, by decide +kernel⟩
  have hcleared : (HealthState.clear (m := StateM Machine) w.statePath w.machine).1 = .ok () :=
    eq_ok_of_isOk (by decide +kernel)
  have hrun : (opening (idle nearSettings) filedMachine).run shortMoves = w := rfl
  obtain ⟨-, -, hwritten, hothers⟩ := shutdown_clears hrun hretire hworks hcleared
  have hfile : w.machine.disk.locate .name w.machine.workingDir w.statePath =
      .ok (.name Disk.root "a.json" (some (.file 1)) false) := by decide +kernel
  have hlink : ¬Disk.EndsAtLink (w.machine.disk.locate .name w.machine.workingDir w.statePath) := by
    rw [hfile]
    rintro ⟨_, _, _, _, hlink⟩
    cases hlink
  have hpaths : start.writtenPaths shortMoves = ["a.json"] := by decide +kernel
  have hloaded : start.loadedPaths shortMoves = [] := by decide +kernel
  refine ⟨hretire, hpaths, by decide +kernel, ?_, ?_⟩
  · have hsame : ∀ path ∈ start.loadedPaths shortMoves, path = start.statePath := by
      rw [hloaded]
      exact List.forall_mem_nil _
    have hmem : "a.json" ∈ start.writtenPaths shortMoves := by
      rw [hpaths]
      exact List.mem_cons_self
    exact hwritten hsame _ hmem
  · exact (hothers hlink "c.toml").2 (by decide +kernel)

/-- A machine with a file that names another path. -/
def renamingMachine : Machine :=
  { homeMachine with
    disk := (Disk.empty.addFile Disk.root "c.toml" "paths.state_file = 'b.json'".toUTF8).1 }

/-- One round, and a request to load the settings. -/
def movesToLoad : List Move :=
  List.replicate 6 .advance ++ .request .reload :: List.replicate 9 .advance

/-- Another round, and a request to end. -/
def movesToRetire : List Move :=
  List.replicate 3 .advance ++ .request .shutdown :: List.replicate 3 .advance

/-- The world before the settings are loaded. -/
def beforeLoad : World := (opening (idle nearSettings) renamingMachine).run movesToLoad

/-- The settings that are loaded. -/
def renamedSettings : Settings :=
  (beforeLoad.daemon.loadedAgain beforeLoad.machine).toOption.getD nearSettings

theorem loadedAgain_beforeLoad :
    beforeLoad.daemon.loadedAgain beforeLoad.machine = .ok renamedSettings := by
  have hloads : (beforeLoad.daemon.loadedAgain beforeLoad.machine).isOk = true := by
    decide +kernel
  obtain ⟨settings, hsettings⟩ := exists_of_isOk hloads
  rw [renamedSettings, hsettings]
  rfl

theorem fingerprint_renamedSettings :
    renamedSettings.fingerprint ≠ beforeLoad.daemon.settings.fingerprint := by
  rw [Settings.fingerprint_eq, Settings.fingerprint_eq]
  decide +kernel

/-- The world after a loading whose settings were adopted. -/
def adopting (w : World) (settings : Settings) : World where
  stage := .toggle
  daemon := w.daemon.adopting settings
  machine :=
    (say (m := StateM Machine) ("config reloaded: " ++ reloadDetails settings)
      (Settings.load (m := StateM Machine) (some w.daemon.settings.paths.configFile)
        (say (m := StateM Machine) "config reload requested (SIGHUP)" w.machine).2).2).2
  history := .load :: w.history
  collected := w.collected

theorem advance_of_changed {w : World} {settings : Settings} (hload : w.stage = .load)
    (hloaded : w.daemon.loadedAgain w.machine = .ok settings)
    (hchanged : settings.fingerprint ≠ w.daemon.settings.fingerprint) :
    w.advance = w.adopting settings := by
  obtain ⟨stage, daemon, machine, history, collected⟩ := w
  subst hload
  have hreload := daemon.reload_apply machine
  dsimp only at hloaded hchanged
  rw [hloaded] at hreload
  dsimp only at hreload
  rw [if_neg hchanged] at hreload
  simp only [advance, Loop.Stage.step, StateM.bind_apply, StateM.pure_apply, hreload]
  rfl

theorem run_append (w : World) (moves rest : List Move) :
    w.run (moves ++ rest) = (w.run moves).run rest := List.foldl_append

theorem run_advance (w : World) (rest : List Move) :
    w.run (.advance :: rest) = w.advance.run rest := rfl

/-- The world before the daemon takes its state away. -/
def beforeRetire : World := (beforeLoad.adopting renamedSettings).run movesToRetire

theorem run_renaming :
    (opening (idle nearSettings) renamingMachine).run
        (movesToLoad ++ .advance :: movesToRetire) = beforeRetire := by
  rw [run_append, ← beforeLoad, run_advance, beforeRetire,
    advance_of_changed (eq_load (by decide +kernel)) loadedAgain_beforeLoad
      fingerprint_renamedSettings]

/-- The run is looked at only once. -/
theorem checked_beforeRetire :
    (atRetire beforeRetire.stage = true ∧
      Works (.remove beforeRetire.statePath) beforeRetire.machine ∧
      (HealthState.clear (m := StateM Machine) beforeRetire.statePath
        beforeRetire.machine).1.isOk = true) ∧
    "a.json" ∈ (opening (idle nearSettings) renamingMachine).writtenPaths
      (movesToLoad ++ .advance :: movesToRetire) ∧
    beforeRetire.advance.machine.disk.isThere beforeRetire.advance.machine.workingDir "b.json" =
      false ∧
    beforeRetire.advance.machine.disk.isThere beforeRetire.advance.machine.workingDir "a.json" =
      true := by
  decide +kernel

/-- A loading brings in another path, and the first state file stays. -/
theorem shutdown_leaves_earlier_file :
    let start := opening (idle nearSettings) renamingMachine
    let moves := movesToLoad ++ .advance :: movesToRetire
    let w := start.run moves
    let after := w.advance.machine
    (w.stage = .retire ∧ Works (.remove w.statePath) w.machine ∧
      (HealthState.clear (m := StateM Machine) w.statePath w.machine).1 = .ok ()) ∧
    "a.json" ∈ start.writtenPaths moves ∧ w.advance.stage = .done ∧
      after.disk.isThere after.workingDir "b.json" = false ∧
      after.disk.isThere after.workingDir "a.json" = true := by
  obtain ⟨⟨hretire, hworks, hcleared⟩, hwritten, hgone, hthere⟩ := checked_beforeRetire
  have hstage := eq_retire hretire
  have hdone := eq_ok_of_isOk hcleared
  intro start moves w after
  have hw : w = beforeRetire := run_renaming
  clear_value w
  subst hw
  exact ⟨⟨hstage, hworks, hdone⟩, hwritten, (advance_retire hstage hdone).1, hgone, hthere⟩

end

end World

end Backlog
