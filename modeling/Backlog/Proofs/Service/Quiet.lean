import Backlog.Host.Machine
import Backlog.Proofs.Service.Acts

/-!
# What leaves signals alone

On a machine, only looks at the signals touch them, and the sending of one.  A computation
is `Quiet` if it leaves the signals of the machine as they were, and those that are still to
come.  Quiet computations compose (`Quiet.bind`), so each operation is looked at once, and the
programs made of them follow their text: loading the settings, a round but for its sources,
writing and clearing the state file.
-/

namespace Backlog

namespace Machine

/-- The signals that have arrived, and those that are to come. -/
def heard (s : Machine) : SignalFlags × List (List Signal) := (s.signals, s.arrivals)

/-- A computation that leaves the signals alone. -/
def Quiet {α : Type} (x : StateM Machine α) : Prop := ∀ s, heard (x s).2 = heard s

namespace Quiet

variable {α β : Type}

theorem pure (a : α) : Quiet (pure a : StateM Machine α) := fun _ => rfl

theorem bind {x : StateM Machine α} {f : α → StateM Machine β} (hx : Quiet x)
    (hf : ∀ a, Quiet (f a)) : Quiet (x >>= f) :=
  fun s => (hf (x s).1 (x s).2).trans (hx s)

theorem ite {p : Prop} [Decidable p] {x y : StateM Machine α} (hx : Quiet x) (hy : Quiet y) :
    Quiet (if p then x else y) := by
  split
  · exact hx
  · exact hy

theorem mapM {f : α → StateM Machine β} {row : List α} (hf : ∀ a ∈ row, Quiet (f a)) :
    Quiet (row.mapM f) := by
  induction row with
  | nil => exact .pure []
  | cons a rest ih =>
      rw [List.mapM_cons]
      refine .bind (hf a List.mem_cons_self) fun b => .bind (ih fun a ha => ?_) fun _ => .pure _
      exact hf a (List.mem_cons_of_mem _ ha)

end Quiet

/-! ## Operations -/

theorem quiet_upset (op : FileOperation) : Quiet (upset op) := by
  intro s
  by_cases hended : s.isEnded = true
  · have h : (upset op) s = (some ⟨ended, 0, true⟩, s) := by
      change (if s.isEnded then _ else _ : StateM Machine (Option Upset)) s = _
      rw [if_pos hended]
      rfl
    rw [h]
  · have h : heard ((upset op) s).2 = heard s := by
      change heard ((if s.isEnded then _ else _ : StateM Machine (Option Upset)) s).2 = _
      rw [if_neg hended]
      rfl
    exact h

theorem quiet_changeDisk {α : Type} (op : FileOperation)
    (change : Disk → Except IoFault (α × Disk)) : Quiet (changeDisk op change) := by
  refine .bind (quiet_upset op) fun upset => ?_
  cases upset with
  | some u => exact .pure _
  | none =>
      intro s
      dsimp only
      rw [StateM.bind_apply]
      generalize change _ = changed
      cases changed <;> rfl

section

variable (path : String) (file : OpenFile)

theorem quiet_env : Quiet (Host.env path) := fun _ => rfl

theorem quiet_now : Quiet Host.now := fun _ => rfl

theorem quiet_uptime : Quiet Host.uptime := fun _ => rfl

theorem quiet_pid : Quiet Host.pid := fun _ => rfl

theorem quiet_isThere : Quiet (Host.isThere path) := fun _ => rfl

theorem quiet_read : Quiet (Host.read path) := fun _ => rfl

theorem quiet_createDirs : Quiet (Host.createDirs path) := by
  refine .bind (quiet_upset _) fun upset => ?_
  cases upset <;> exact fun _ => rfl

theorem quiet_openFresh : Quiet (Host.openFresh path : StateM Machine _) :=
  .bind (fun _ => rfl) fun _ => quiet_changeDisk _ _

theorem quiet_write (bytes : ByteArray) : Quiet (Host.write (m := StateM Machine) file bytes) := by
  refine .bind (quiet_upset _) fun upset => ?_
  cases upset <;> exact fun _ => rfl

theorem quiet_sync : Quiet (Host.sync (m := StateM Machine) file) := quiet_changeDisk _ _

theorem quiet_rename (source target : String) : Quiet (Host.rename source target) :=
  .bind (fun _ => rfl) fun _ => quiet_changeDisk _ _

theorem quiet_remove : Quiet (Host.remove path) :=
  .bind (fun _ => rfl) fun _ => quiet_changeDisk _ _

theorem quiet_printError : Quiet (Host.printError path) := by
  refine .bind (quiet_upset _) fun upset => ?_
  cases upset <;> exact fun _ => rfl

theorem quiet_sleep (millis : Nat) : Quiet (Host.sleep millis) := fun _ => rfl

end

/-! ## Programs -/

theorem quiet_warn (line : String) : Quiet (Host.warn line) :=
  .bind (quiet_printError _) fun _ => .pure ()

theorem quiet_readText (path : String) : Quiet (Host.readText path) := by
  refine .bind (quiet_read path) fun bytes => ?_
  cases bytes with
  | error fault => exact .pure _
  | ok bytes =>
      dsimp only
      split <;> exact .pure _

theorem quiet_homeDir : Quiet Settings.homeDir := by
  refine .bind (quiet_env _) fun home => ?_
  cases home with
  | some home => exact .pure _
  | none => exact .bind (quiet_warn _) fun _ => .pure _

theorem quiet_overrides : Quiet Settings.overrides :=
  .bind (.mapM fun _ _ => .bind (quiet_env _) fun _ => .pure _) fun _ => .pure _

theorem quiet_ofFile (other : Settings) (path : String) : Quiet (Settings.ofFile other path) := by
  refine .bind (quiet_readText path) fun text => ?_
  cases text with
  | error fault => exact .pure _
  | ok text =>
      dsimp only
      split <;> exact .pure _

theorem quiet_load (path : Option String) : Quiet (Settings.load path) := by
  refine .bind quiet_homeDir fun home => .bind (quiet_isThere _) fun isThere => .ite ?_ ?_
  · refine .bind (quiet_ofFile _ _) fun read => ?_
    cases read with
    | error fault => exact .pure _
    | ok s => exact .bind quiet_overrides fun _ => .pure _
  · cases path with
    | some path => exact fun _ => rfl
    | none => exact fun s => Quiet.bind quiet_overrides (fun _ => .pure _) s

theorem quiet_replaceFile (draft path text : String) :
    Quiet (HealthState.replaceFile draft path text) := by
  refine .bind (quiet_openFresh draft) fun file => ?_
  cases file with
  | error fault => exact .pure _
  | ok file =>
      refine .bind (quiet_write file _) fun written => ?_
      cases written.fault with
      | some fault => exact .pure _
      | none =>
          refine .bind (quiet_sync file) fun synced => ?_
          cases synced with
          | error fault => exact .pure _
          | ok => exact quiet_rename draft path

theorem quiet_writeState (path : String) (state : HealthState) :
    Quiet (HealthState.write path state) := by
  refine .bind (quiet_createDirs _) fun made => ?_
  cases made with
  | error fault => exact .pure _
  | ok =>
      refine .bind (quiet_replaceFile _ _ _) fun replaced => ?_
      cases replaced with
      | ok => exact .pure _
      | error fault => exact .bind (quiet_remove _) fun _ => .pure _

theorem quiet_clearState (path : String) : Quiet (HealthState.clear path) := by
  refine .bind (quiet_remove path) fun removed => ?_
  cases removed with
  | ok => exact .pure _
  | error fault => exact .ite (.pure _) (.pure _)

theorem quiet_loadSpool (path : String) : Quiet (SpoolDocument.load path) := by
  refine .bind (quiet_readText path) fun text => ?_
  cases text with
  | error fault => exact .pure _
  | ok text =>
      dsimp only
      split <;> exact .pure _

theorem quiet_sampleSpool (path queue : String) : Quiet (SpoolDocument.sample path queue) := by
  refine .bind (quiet_loadSpool path) fun doc => ?_
  cases doc with
  | error details => exact .pure _
  | ok doc =>
      dsimp only
      split
      · split
        · exact .pure _
        · exact .bind quiet_now fun _ => .pure _
      · exact .pure _

/-- A source that leaves the signals alone when it is asked. -/
def QuietSource (source : Source (StateM Machine)) : Prop := Quiet source.sample

theorem quietSource_sourcesOf (settings : Settings) :
    ∀ source ∈ Daemon.sourcesOf (m := StateM Machine) settings, QuietSource source := by
  intro source hmem
  obtain ⟨queue, -, rfl⟩ := List.mem_map.1 hmem
  exact quiet_sampleSpool _ _

theorem QuietSource.read {source : Source (StateM Machine)} (h : QuietSource source) :
    Quiet source.read :=
  .bind h fun _ => .pure _

/-! ## Acts of a daemon -/

variable (d : Daemon (StateM Machine))

theorem quiet_say (text : String) : Quiet (Daemon.say text) := quiet_warn _

theorem quiet_announce : Quiet d.announce := by
  refine .bind (quiet_say _) fun _ => .ite ?_ (.pure _)
  exact .bind (quiet_say _) fun _ => .pure _

theorem quiet_tell : Quiet d.tell :=
  .ite (.bind (quiet_say _) fun _ => .pure _) (.pure _)

theorem quiet_persist : Quiet d.persist := by
  refine .bind quiet_pid fun pid => .bind quiet_now fun now => .bind (quiet_writeState _ _) ?_
  intro written
  cases written with
  | ok => exact .pure _
  | error fault => exact .bind (quiet_say _) fun _ => .pure _

theorem quiet_adopt (settings : Settings) (monitor : Monitor Float) :
    Quiet (d.adopt settings monitor) :=
  .bind (quiet_say _) fun _ => .pure _

theorem quiet_reload : Quiet d.reload := by
  refine .bind (quiet_say _) fun _ => .bind (quiet_load _) fun loaded => ?_
  cases loaded with
  | error fault => exact .bind (quiet_say _) fun _ => .pure _
  | ok settings =>
      refine .ite (.bind (quiet_say _) fun _ => .pure _) ?_
      cases d.monitor.reconfigure settings.monitor with
      | error cause => exact .bind (quiet_say _) fun _ => .pure _
      | ok monitor => exact quiet_adopt d settings monitor

theorem quiet_retire (reason : String) : Quiet (d.retire reason) := by
  refine .bind quiet_uptime fun now => .bind (quiet_clearState _) fun cleared => ?_
  cases cleared with
  | ok => exact .pure _
  | error fault => exact .bind (quiet_say _) fun _ => .pure _

end Machine

end Backlog
