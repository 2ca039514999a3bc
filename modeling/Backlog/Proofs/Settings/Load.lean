import Backlog.Proofs.Accepted
import Backlog.Proofs.Service.Acts
import Backlog.Host.Machine

/-!
# Settings that were loaded

Two checks stand between a file and a monitor: that of the settings as a whole, and the one
with which the monitor tries them out.  They are written apart, and the first one asks for
more: settings that were loaded are settings the monitor takes (`isAccepted_of_load`).

On a machine the outcome of a loading depends on the variables and on one file (`load_fst`).
The path of that file is left in the settings.  Whether the path was given or is the usual
one makes a difference only if the file is missing, and so a second loading, to which the
path is given, comes to the same settings or finds no file (`load_again`).

A loading changes nothing of the machine except that it may say something on it
(`speaks_load`).
-/

namespace Backlog

/-- A guard before other checks. -/
theorem guard_bind_eq_ok {ε β : Type} {c : Prop} [Decidable c] {e : ε} {y : Except ε β} {b : β} :
    (if c then (throw e : Except ε PUnit) >>= fun _ => y else y) = .ok b ↔ ¬c ∧ y = .ok b := by
  split <;> simp_all [check_bind_eq_ok, throw_ne_ok]

namespace Settings

/-! ## The two checks -/

theorem validateDamping_eq_ok_iff {name : String} {x : Float} :
    validateDamping name x = .ok () ↔ Scalar.isUnit x = true := by
  unfold validateDamping
  split <;> simp_all

theorem isAccepted_of_validate {s : Settings} (h : s.validate = .ok ()) :
    s.monitor.IsAccepted := by
  simp only [validate, guard_bind_eq_ok, check_bind_eq_ok, validateDamping_eq_ok_iff] at h
  obtain ⟨hwindow, hpolicy, -, halpha, hbeta, hgamma, hperiod, -⟩ := h
  refine ⟨?_, hpolicy, Nat.not_lt.1 hwindow⟩
  -- the settings are checked whatever the mode, the monitor checks those the mode has
  unfold SmoothingSettings.damping
  cases s.monitor.smoothing.mode with
  | simple => exact halpha
  | double => exact ⟨halpha, hbeta⟩
  | triple => exact ⟨halpha, hbeta, hgamma, Nat.pos_of_ne_zero hperiod⟩

/-! ## The path of the file -/

theorem complete_eq_ok_iff {path : String} {overrides : List (String × String)}
    {s t : Settings} :
    s.complete path overrides = .ok t ↔
      ∃ u, ({ s with paths := { s.paths with configFile := path } } : Settings).override
          (fun name => List.lookup name overrides) = .ok u ∧
        u.normalizeQueues.validate = .ok () ∧ t = u.normalizeQueues := by
  simp only [complete, bind_eq_ok]
  refine exists_congr fun u => and_congr_right fun _ => ?_
  cases u.normalizeQueues.validate <;> simp [pure_eq_ok, throw_ne_ok]

/-- An override that leaves the path of the file alone. -/
def KeepsFile (o : Override) : Prop :=
  ∀ (text : String) (s t : Settings), o.apply text s = .ok t →
    t.paths.configFile = s.paths.configFile

theorem keepsFile_monitor {β : Type} (name : String) (read : String → Except String β)
    (put : β → MonitorSettings Float → MonitorSettings Float) :
    KeepsFile (.monitor name read put) := by
  intro text s t h
  obtain ⟨b, -, hput⟩ := bind_eq_ok.1 h
  cases pure_eq_ok.1 hput
  rfl

theorem keepsFile_smoothing {β : Type} (name : String) (read : String → Except String β)
    (put : β → SmoothingSettings Float → SmoothingSettings Float) :
    KeepsFile (.smoothing name read put) := by
  intro text s t h
  obtain ⟨b, -, hput⟩ := bind_eq_ok.1 h
  cases pure_eq_ok.1 hput
  rfl

theorem keepsFile_sources (name : String) (put : String → SourceSettings → SourceSettings) :
    KeepsFile (.sources name put) := by
  intro text s t h
  cases h
  rfl

theorem keepsFile_paths {name : String} {put : String → PathSettings → PathSettings}
    (hput : ∀ text p, (put text p).configFile = p.configFile) : KeepsFile (.paths name put) := by
  intro text s t h
  cases h
  exact hput text s.paths

theorem keepsFile_all : ∀ o ∈ Override.all, KeepsFile o := by
  unfold Override.all
  simp only [List.forall_mem_cons]
  exact ⟨keepsFile_monitor _ _ _, keepsFile_monitor _ _ _, keepsFile_monitor _ _ _,
    keepsFile_monitor _ _ _, keepsFile_monitor _ _ _, keepsFile_smoothing _ _ _,
    keepsFile_smoothing _ _ _, keepsFile_smoothing _ _ _, keepsFile_smoothing _ _ _,
    keepsFile_smoothing _ _ _, keepsFile_sources _ _, keepsFile_sources _ _,
    keepsFile_paths fun _ _ => rfl, keepsFile_paths fun _ _ => rfl, List.forall_mem_nil _⟩

/-- What each override of a row leaves true, all of them leave true. -/
theorem foldlM_applyTo (P : Settings → Prop) {lookup : String → Option String}
    {row : List Override}
    (hrow : ∀ o ∈ row, ∀ text s t, lookup o.name = some text → o.apply text s = .ok t → P s → P t)
    {s t : Settings} (hs : P s) (h : row.foldlM (fun s o => o.applyTo lookup s) s = .ok t) :
    P t := by
  induction row generalizing s with
  | nil =>
      cases pure_eq_ok.1 h
      exact hs
  | cons o rest ih =>
      rw [List.foldlM_cons] at h
      obtain ⟨u, hu, hrest⟩ := bind_eq_ok.1 h
      obtain ⟨ho, hmore⟩ := List.forall_mem_cons.1 hrow
      refine ih hmore ?_ hrest
      unfold Override.applyTo at hu
      cases hlookup : lookup o.name with
      | none =>
          simp only [hlookup] at hu
          cases hu
          exact hs
      | some text =>
          simp only [hlookup] at hu
          cases happly : o.apply text s with
          | error details => simp [happly] at hu
          | ok v =>
              simp only [happly] at hu
              cases hu
              exact ho text s _ hlookup happly hs

/-- Completed settings tell which file they come from. -/
theorem configFile_of_complete {path : String} {overrides : List (String × String)}
    {s t : Settings} (h : s.complete path overrides = .ok t) : t.paths.configFile = path := by
  obtain ⟨u, hu, -, rfl⟩ := complete_eq_ok_iff.1 h
  have hfile : u.paths.configFile = path :=
    foldlM_applyTo (·.paths.configFile = path)
      (fun o ho text s t _ happly hs => (keepsFile_all o ho text s t happly).trans hs) rfl hu
  exact hfile

/-! ## Loading on any system -/

section

variable {σ : Type} [Host (StateM σ)]

/-- What a loading begins with: the settings in its file, or the usual ones. -/
def begun (path : Option String) (home : String) : StateM σ (Except Fault Settings) := do
  let other := standard home
  let file := path.getD other.paths.configFile
  if ← Host.isThere file then ofFile other file
  else
    match path with
    | some _ => return .error (.missingConfig file)
    | none => return .ok other

theorem load_eq (path : Option String) :
    (load path : StateM σ (Except Fault Settings)) = homeDir >>= fun home =>
      begun path home >>= fun read =>
        match read with
        | .error fault => pure (.error fault)
        | .ok s => overrides >>= fun row =>
          pure (s.complete (path.getD (standard home).paths.configFile) row) := by
  funext s
  simp only [load, begun, StateM.bind_apply]
  split
  · rfl
  · cases path <;> rfl

/-- Settings that were loaded are settings the monitor takes. -/
theorem isAccepted_of_load {path : Option String} {s : σ} {t : Settings}
    (h : (load (m := StateM σ) path s).1 = .ok t) : t.monitor.IsAccepted := by
  rw [load_eq] at h
  simp only [StateM.bind_apply] at h
  generalize begun (σ := σ) path _ _ = read at h
  obtain ⟨outcome, s⟩ := read
  cases outcome with
  | error fault => cases h
  | ok u =>
      obtain ⟨v, -, hvalid, rfl⟩ := complete_eq_ok_iff.1 h
      exact isAccepted_of_validate hvalid

end

end Settings

/-! ## Loading on a machine -/

namespace Machine

/-- The variables of a machine and its files. -/
def scene (s : Machine) : Table String × Disk × Nat := (s.environ, s.disk, s.workingDir)

/-- Nothing happened to a machine but that something was printed on its error stream, or was to
be. -/
def Spoke (s s' : Machine) : Prop :=
  ∃ errors steps isEnded, s' = { s with errors, steps, isEnded }

namespace Spoke

variable {s s' s'' : Machine}

theorem refl (s : Machine) : Spoke s s := ⟨_, _, _, rfl⟩

theorem trans (h : Spoke s s') (h' : Spoke s' s'') : Spoke s s'' := by
  obtain ⟨_, _, _, rfl⟩ := h
  obtain ⟨errors, steps, isEnded, rfl⟩ := h'
  exact ⟨errors, steps, isEnded, rfl⟩

theorem now (h : Spoke s s') : s'.now = s.now := by
  obtain ⟨_, _, _, rfl⟩ := h
  rfl

theorem scene_eq (h : Spoke s s') : scene s' = scene s := by
  obtain ⟨_, _, _, rfl⟩ := h
  rfl

end Spoke

/-- A computation that does nothing to a machine but print on its error stream. -/
def Speaks {α : Type} (x : StateM Machine α) : Prop := ∀ s, Spoke s (x s).2

namespace Speaks

variable {α β : Type}

theorem pure (a : α) : Speaks (pure a : StateM Machine α) := .refl

theorem bind {x : StateM Machine α} {f : α → StateM Machine β} (hx : Speaks x)
    (hf : ∀ a, Speaks (f a)) : Speaks (x >>= f) :=
  fun s => (hx s).trans (hf (x s).1 (x s).2)

end Speaks

theorem speaks_upset (op : FileOperation) : Speaks (upset op) := by
  intro s
  change Spoke s ((if s.isEnded then _ else _ : StateM Machine (Option Upset)) s).2
  split
  · exact .refl s
  · exact ⟨s.errors, s.steps + 1, _, rfl⟩

theorem speaks_warn (line : String) : Speaks (Host.warn line) := by
  refine .bind (.bind (speaks_upset .printError) fun upset => ?_) fun _ => .pure _
  cases upset with
  | some _ => exact .pure _
  | none => exact fun s => ⟨_, s.steps, s.isEnded, rfl⟩

theorem scene_warn (line : String) (s : Machine) :
    scene (Host.warn (m := StateM Machine) line s).2 = scene s :=
  (speaks_warn line s).scene_eq

/-- Two machines on which the variables are the same and a path leads to the same file. -/
structure SameFile (file : String) (s s' : Machine) : Prop where
  environ : s'.environ = s.environ
  isThere : s'.disk.isThere s'.workingDir file = s.disk.isThere s.workingDir file
  read : s'.disk.read s'.workingDir file = s.disk.read s.workingDir file

variable {s s' s'' : Machine} {file : String}

theorem SameFile.of_scene (h : scene s' = scene s) : SameFile file s s' := by
  obtain ⟨henviron, hdisk, hdir⟩ := Prod.ext_iff.1 h |>.imp_right Prod.ext_iff.1
  dsimp only [scene] at henviron hdisk hdir
  exact ⟨henviron, by rw [hdisk, hdir], by rw [hdisk, hdir]⟩

theorem SameFile.trans (h : SameFile file s s') (h' : SameFile file s' s'') :
    SameFile file s s'' :=
  ⟨h'.environ.trans h.environ, h'.isThere.trans h.isThere, h'.read.trans h.read⟩

/-- The text of a file on a machine. -/
def textOn (s : Machine) (file : String) : Except IoFault String :=
  match s.disk.read s.workingDir file with
  | .error fault => .error fault
  | .ok bytes =>
    match String.fromUTF8? bytes with
    | some text => .ok text
    | none => .error .notText

theorem Spoke.textOn (h : Spoke s s') (file : String) : s'.textOn file = s.textOn file := by
  obtain ⟨_, _, _, rfl⟩ := h
  rfl

theorem readText_apply (file : String) (s : Machine) :
    Host.readText (m := StateM Machine) file s = (textOn s file, s) := by
  unfold Host.readText textOn
  rw [StateM.bind_apply]
  change (match s.disk.read s.workingDir file with
    | .error fault => pure (.error fault)
    | .ok bytes => _ : StateM Machine (Except IoFault String)) s = _
  cases s.disk.read s.workingDir file with
  | error fault => rfl
  | ok bytes =>
      dsimp only
      cases String.fromUTF8? bytes <;> rfl

end Machine

namespace Settings

open Machine

variable {s s' : Machine}

/-- The home directory that the variables of a machine name. -/
def homeOn (s : Machine) : String := (s.environ.find? "HOME").getD "/tmp"

theorem homeDir_fst (s : Machine) : (homeDir (m := StateM Machine) s).1 = homeOn s := by
  unfold homeDir homeOn
  rw [StateM.bind_apply]
  change ((match s.environ.find? "HOME" with
    | some home => pure home
    | none => _ : StateM Machine String) s).1 = _
  cases s.environ.find? "HOME" <;> rfl

theorem speaks_homeDir : Speaks homeDir := by
  refine .bind (fun s => .refl s) fun home => ?_
  cases home with
  | some home => exact .pure _
  | none => exact .bind (speaks_warn _) fun _ => .pure _

theorem mapM_env (row : List Override) (s : Machine) :
    (row.mapM fun o => do return (o.name, ← Host.env o.name) : StateM Machine _) s =
      (row.map fun o => (o.name, s.environ.find? o.name), s) := by
  induction row with
  | nil => rfl
  | cons o rest ih =>
      rw [List.mapM_cons, StateM.bind_apply]
      change ((rest.mapM fun o => do return (o.name, ← Host.env o.name) : StateM Machine _) >>=
        fun found => pure ((o.name, s.environ.find? o.name) :: found)) s = _
      rw [StateM.bind_apply, ih]
      rfl

theorem overrides_snd (s : Machine) : (overrides (m := StateM Machine) s).2 = s := by
  unfold overrides
  rw [StateM.bind_apply, mapM_env]
  rfl

theorem overrides_congr (h : s'.environ = s.environ) :
    (overrides (m := StateM Machine) s').1 = (overrides (m := StateM Machine) s).1 := by
  unfold overrides
  rw [StateM.bind_apply, StateM.bind_apply, mapM_env, mapM_env, h]
  rfl

/-- The settings in a file on a machine. -/
def inFile (s : Machine) (other : Settings) (file : String) : Except Fault Settings :=
  match textOn s file with
  | .error fault => .error (.io file fault.message)
  | .ok text =>
    match ofText? other text with
    | some settings => .ok settings
    | none => .error (.configParse "toml" Toml.faultText)

theorem ofFile_apply (other : Settings) (file : String) (s : Machine) :
    ofFile (m := StateM Machine) other file s = (inFile s other file, s) := by
  unfold ofFile inFile
  rw [StateM.bind_apply, readText_apply]
  cases textOn s file with
  | error fault => rfl
  | ok text =>
      dsimp only
      cases ofText? other text <;> rfl

theorem inFile_congr {file : String} (h : SameFile file s s') (other : Settings) :
    inFile s' other file = inFile s other file := by
  unfold inFile textOn
  rw [h.read]

/-- What a loading begins with on a machine: what is in its file, or the usual settings. -/
def beginning (s : Machine) (path : Option String) (home : String) : Except Fault Settings :=
  if s.disk.isThere s.workingDir (path.getD (standard home).paths.configFile) then
    inFile s (standard home) (path.getD (standard home).paths.configFile)
  else
    match path with
    | some file => .error (.missingConfig file)
    | none => .ok (standard home)

theorem begun_apply (path : Option String) (home : String) (s : Machine) :
    begun path home s = (beginning s path home, s) := by
  unfold begun beginning
  rw [StateM.bind_apply]
  change (if s.disk.isThere s.workingDir (path.getD (standard home).paths.configFile) then _
    else _ : StateM Machine (Except Fault Settings)) s = _
  by_cases hthere : s.disk.isThere s.workingDir (path.getD (standard home).paths.configFile)
  · rw [if_pos hthere, if_pos hthere, ofFile_apply]
  · rw [if_neg hthere, if_neg hthere]
    cases path <;> rfl

/-- The outcome of a loading is made of the variables and of one file. -/
theorem load_fst (path : Option String) (s : Machine) :
    (load (m := StateM Machine) path s).1 =
      match beginning s path (homeOn s) with
      | .error fault => .error fault
      | .ok read =>
        read.complete (path.getD (standard (homeOn s)).paths.configFile)
          (overrides (m := StateM Machine) s).1 := by
  have hsame (file : String) : SameFile file s (homeDir (m := StateM Machine) s).2 :=
    .of_scene (speaks_homeDir s).scene_eq
  have hbegin : beginning (homeDir (m := StateM Machine) s).2 path (homeOn s) =
      beginning s path (homeOn s) := by
    unfold beginning
    rw [(hsame _).isThere, inFile_congr (hsame _)]
  rw [load_eq, StateM.bind_apply, StateM.bind_apply, homeDir_fst, begun_apply, hbegin]
  cases beginning s path (homeOn s) with
  | error fault => rfl
  | ok read =>
      dsimp only
      rw [StateM.bind_apply, overrides_congr (hsame "").environ]
      rfl

/-- A loading changes nothing about a machine, but it may say that there is no home directory. -/
theorem speaks_load (path : Option String) : Speaks (load path) := by
  rw [load_eq]
  refine .bind speaks_homeDir fun home => .bind (fun s => ?_) fun read => ?_
  · rw [begun_apply]
    exact .refl s
  · cases read with
    | error fault => exact .pure _
    | ok read => exact .bind (fun s => (overrides_snd s).symm ▸ .refl s) fun _ => .pure _

theorem load_eq_ok_iff {path : Option String} {settings : Settings} :
    (load (m := StateM Machine) path s).1 = .ok settings ↔
      ∃ read, beginning s path (homeOn s) = .ok read ∧
        read.complete (path.getD (standard (homeOn s)).paths.configFile)
          (overrides (m := StateM Machine) s).1 = .ok settings := by
  rw [load_fst]
  cases beginning s path (homeOn s) <;> simp

/-! ## Loading again -/

section

variable {path : Option String} {settings : Settings}

/-- The path that was given is left in the settings. -/
theorem configFile_of_load {file : String}
    (hload : (load (m := StateM Machine) (some file) s).1 = .ok settings) :
    settings.paths.configFile = file := by
  obtain ⟨read, -, hcomplete⟩ := load_eq_ok_iff.1 hload
  exact configFile_of_complete hcomplete

/-- A file that was asked for was there if settings came out of it. -/
theorem isThere_of_load {file : String}
    (hload : (load (m := StateM Machine) (some file) s).1 = .ok settings) :
    s.disk.isThere s.workingDir file = true := by
  obtain ⟨read, hread, -⟩ := load_eq_ok_iff.1 hload
  unfold beginning at hread
  rw [Option.getD_some] at hread
  by_cases hthere : s.disk.isThere s.workingDir file = true
  · exact hthere
  · rw [if_neg hthere] at hread
    cases hread

/-- Settings that came out of a file come out of it again, also if it was not asked for by its
path at first. -/
theorem load_again (hload : (load (m := StateM Machine) path s).1 = .ok settings)
    (hsame : SameFile settings.paths.configFile s s')
    (hthere : s.disk.isThere s.workingDir settings.paths.configFile = true) :
    (load (m := StateM Machine) (some settings.paths.configFile) s').1 = .ok settings := by
  obtain ⟨read, hread, hcomplete⟩ := load_eq_ok_iff.1 hload
  have hfile := configFile_of_complete hcomplete
  have hhome : homeOn s' = homeOn s := by rw [homeOn, hsame.environ, homeOn]
  unfold beginning at hread
  rw [← hfile, if_pos hthere] at hread
  refine load_eq_ok_iff.2 ⟨read, ?_, ?_⟩
  · unfold beginning
    rw [Option.getD_some, hsame.isThere, if_pos hthere, inFile_congr hsame, hhome, hread]
  · rw [Option.getD_some, overrides_congr hsame.environ, hfile, hcomplete]

/-- Without a file the usual settings are loaded, and a second loading misses the file. -/
theorem load_again_of_missing
    (hsame : SameFile settings.paths.configFile s s')
    (hmissing : s.disk.isThere s.workingDir settings.paths.configFile = false) :
    (load (m := StateM Machine) (some settings.paths.configFile) s').1 =
      .error (.missingConfig settings.paths.configFile) := by
  rw [load_fst, beginning, Option.getD_some, hsame.isThere, hmissing]
  rfl

end

end Settings

end Backlog
