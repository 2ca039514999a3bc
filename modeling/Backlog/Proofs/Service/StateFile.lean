import Backlog.Proofs.Host.Drafts
import Backlog.Proofs.Host.Machine
import Backlog.Proofs.Host.Overlay

/-!
# Replacing the state file

A daemon writes its state to a draft, and renames the draft.  Any of these operations may go wrong,
and the process may end at any time.  Whoever reads the state file meanwhile still finds what was
there before, or else the whole new document (`write_atomic`).

The run is watched, so a statement about each moment is one about all deeds (`Always`).  Before the
renaming the disk differs from what it was at the place of the draft only (`Drafting`).
-/

namespace Backlog

namespace Watched

variable {σ : Type} {P : σ → Prop} {w : Watched σ}

/-- Something holds after all that was done. -/
def Always (P : σ → Prop) (w : Watched σ) : Prop := ∀ deed ∈ w.deeds, P deed.after

theorem Always.after (h : Always P w) {s : σ} (hs : P s) (operation : FileOperation)
    (isDone : Bool) : Always P (w.after operation isDone s) := by
  intro deed hmem
  rcases List.mem_append.1 hmem with hbefore | hlast
  · exact h deed hbefore
  · obtain rfl := List.mem_singleton.1 hlast
    exact hs

end Watched

namespace HealthState

/-! ## Overlays -/

section

variable {σ τ : Type} [Host (StateM τ)] [Host (StateM σ)] {base : τ → σ}
  {file : Host.File (StateM τ) → Host.File (StateM σ)}

theorem reflects_replaceFile (h : Overlay base file) (draft path text : String) :
    Reflects base id (replaceFile draft path text) (replaceFile draft path text) := by
  refine .bind (h.openFresh draft) fun opened => ?_
  cases opened with
  | error fault => exact .pure _
  | ok f =>
      refine .bind (h.write f text.toUTF8) fun written => ?_
      dsimp only [id]
      cases written.fault with
      | some fault => exact .pure _
      | none =>
          refine .bind (h.sync f) fun synced => ?_
          cases synced with
          | error fault => exact .pure _
          | ok _ => exact h.rename draft path

theorem reflects_write (h : Overlay base file) (path : String) (state : HealthState) :
    Reflects base id (write path state) (write path state) := by
  refine .bind (h.createDirs _) fun made => ?_
  cases made with
  | error fault => exact .pure _
  | ok _ =>
      refine .bind (reflects_replaceFile h _ _ _) fun replaced => ?_
      cases replaced with
      | ok _ => exact .pure _
      | error fault => exact .bind (h.remove _) fun _ => .pure _

end

/-! ## Drafts -/

/-- A draft was opened. -/
def WasOpened (draft : String) (r : Watched Machine) : Prop :=
  ∃ deed ∈ r.deeds, deed.operation = .openFresh draft ∧ deed.isDone = true

instance (draft : String) (r : Watched Machine) : Decidable (WasOpened draft r) :=
  inferInstanceAs (Decidable (∃ deed ∈ r.deeds, _))

section

variable {d : Disk} {here home : Nat} {name path draft text : String} {file : OpenFile}
  {bytes : ByteArray} {r r' : Watched Machine}

theorem wasOpened_after {operation : FileOperation} {isDone : Bool} {s : Machine}
    (h : WasOpened draft (r.after operation isDone s))
    (hother : operation ≠ .openFresh draft ∨ isDone = false) : WasOpened draft r := by
  obtain ⟨deed, hmem, hoperation, hdone⟩ := h
  rcases List.mem_append.1 hmem with hbefore | hlast
  · exact ⟨deed, hbefore, hoperation, hdone⟩
  · obtain rfl := List.mem_singleton.1 hlast
    rcases hother with hother | hother
    · exact absurd hoperation hother
    · cases hother.symm.trans hdone

/-- The directory of a process, and what is found at a path. -/
def Shows (here : Nat) (path : String) (content : Option ByteArray) (s : Machine) : Prop :=
  s.workingDir = here ∧ s.disk.content here path = content

/-- A draft is worked on. -/
structure Drafting (d : Disk) (here : Nat) (draft : String) (home : Nat) (name : String)
    (file : OpenFile) (bytes : ByteArray) (s : Machine) : Prop where
  workingDir : s.workingDir = here
  leads : d.Leads here draft home name
  only : d.OnlyAt home name s.disk
  isOpen : s.disk.IsOpen home name file bytes

theorem Drafting.shows {s : Machine} (h : Drafting d here draft home name file bytes s)
    (hsound : d.Sound) (hclear : d.Clear here path draft) :
    Shows here path (d.content here path) s :=
  ⟨h.workingDir, hclear.content_eq hsound (.inr ⟨home, name, h.leads, h.only⟩)⟩

theorem openFresh_drafting {s s' : Machine} {answer : Except IoFault OpenFile}
    (hsound : s.disk.Sound) (hinside : s.workingDir < s.disk.directories.size)
    (hlink : ¬Disk.EndsAtLink (s.disk.locate .name s.workingDir draft))
    (h : Host.openFresh (m := StateM Machine) draft s = (answer, s')) :
    (∃ fault, answer = .error fault ∧ s'.workingDir = s.workingDir ∧ s'.disk = s.disk) ∨
      ∃ file home name, answer = .ok file ∧
        Drafting s.disk s.workingDir draft home name file .empty s' := by
  rw [Machine.openFresh_apply] at h
  obtain ⟨hhere, ⟨fault, rfl, hdisk⟩ | ⟨file, rfl, hopened⟩⟩ := Machine.changeDisk_cases h
  · exact .inl ⟨fault, rfl, hhere, hdisk⟩
  · cases hopen : s.disk.openFile s.workingDir draft with
    | error fault =>
        rw [hopen] at hopened
        cases hopened
    | ok opened =>
        obtain ⟨file', disk⟩ := opened
        rw [hopen] at hopened
        obtain ⟨rfl, hdisk⟩ := Prod.mk.inj (Except.ok.inj hopened)
        obtain ⟨home, name, hleads, honly, hisOpen⟩ :=
          Disk.openFresh_draft hsound hinside hlink hopen
        exact .inr ⟨file', home, name, rfl, hhere, hleads, hdisk ▸ honly, hdisk ▸ hisOpen⟩

theorem Drafting.write {s s' : Machine} {written : Written}
    (hdraft : Drafting d here draft home name file bytes s) {more : ByteArray}
    (h : Host.write (m := StateM Machine) file more s = (written, s')) :
    ∃ bytes', Drafting d here draft home name file bytes' s' ∧
      (written.fault = none → bytes' = bytes ++ more) := by
  obtain ⟨hhere, part, hdisk, hdone⟩ := Machine.write_cases h
  obtain ⟨honly, bytes', hopen, hwhole⟩ := hdraft.only.write hdraft.isOpen part
  refine ⟨bytes', ⟨hhere.trans hdraft.workingDir, hdraft.leads, hdisk ▸ honly, hdisk ▸ hopen⟩, ?_⟩
  intro hfault
  obtain ⟨rfl, hwritten⟩ := hdone hfault
  exact hwhole hwritten

/-- A device cannot be stored safely. -/
theorem Drafting.sync {s s' : Machine} {answer : Except IoFault Unit}
    (hdraft : Drafting d here draft home name file bytes s)
    (h : Host.sync (m := StateM Machine) file s = (answer, s')) :
    Drafting d here draft home name file bytes s' ∧ (answer = .ok () → file.number.isSome) := by
  change Machine.changeDisk (.sync file.path) (fun d =>
    if file.number.isSome then .ok ((), d) else .error .invalidArgument) s = _ at h
  have hsame (hdisk : s'.disk = s.disk) (hhere : s'.workingDir = s.workingDir) :
      Drafting d here draft home name file bytes s' :=
    ⟨hhere.trans hdraft.workingDir, hdraft.leads, hdisk ▸ hdraft.only, hdisk ▸ hdraft.isOpen⟩
  obtain ⟨hhere, ⟨fault, rfl, hdisk⟩ | ⟨_, rfl, hsynced⟩⟩ := Machine.changeDisk_cases h
  · exact ⟨hsame hdisk hhere, nofun⟩
  · cases hnumber : file.number with
    | none =>
        rw [hnumber] at hsynced
        cases hsynced
    | some number =>
        rw [hnumber] at hsynced
        obtain ⟨-, hdisk⟩ := Prod.mk.inj (Except.ok.inj hsynced)
        exact ⟨hsame hdisk.symm hhere, fun _ => rfl⟩

/-- All is ready to replace a file. -/
structure Ready (d : Disk) (here : Nat) (path draft : String) : Prop where
  sound : d.Sound
  inside : here < d.directories.size
  clear : d.Clear here path draft
  siblings : ∃ front last last', Path.names path = front ++ [last] ∧
    Path.names draft = front ++ [last'] ∧ Disk.start here draft = Disk.start here path

/-- The draft took the place of the file. -/
theorem Drafting.rename {s s' : Machine} {answer : Except IoFault Unit}
    (hdraft : Drafting d here draft home name file bytes s) (hready : Ready d here path draft)
    (hnumber : file.number.isSome)
    (h : Host.rename (m := StateM Machine) draft path s = (answer, s')) :
    (∃ fault, answer = .error fault ∧ Drafting d here draft home name file bytes s') ∨
      answer = .ok () ∧ Shows here path (some bytes) s' ∧ s'.disk.entryAt? here draft = none := by
  obtain ⟨hhere, ⟨fault, rfl, hdisk⟩ | ⟨rfl, hrenamed⟩⟩ := Machine.rename_cases h
  · exact .inl ⟨fault, rfl, hhere.trans hdraft.workingDir, hdraft.leads, hdisk ▸ hdraft.only,
      hdisk ▸ hdraft.isOpen⟩
  · obtain ⟨front, last, last', hnames, hnames', hstart⟩ := hready.siblings
    obtain ⟨number, -, hfile, hbytes⟩ | ⟨hnone, -⟩ := hdraft.isOpen
    · rw [hdraft.workingDir] at hrenamed
      refine .inr ⟨rfl, ⟨hhere.trans hdraft.workingDir, ?_⟩, ?_⟩
      · rw [hdraft.only.content_rename hready.sound hready.inside hready.clear hdraft.leads hfile
          hrenamed, hbytes]
      · exact hdraft.only.entryAt?_rename hready.sound hready.inside hready.clear hdraft.leads hfile
          hrenamed hnames hnames' hstart
    · rw [hnone] at hnumber
      cases hnumber

/-- What is left when a file was not replaced: the disk as it was, or with an open draft. -/
def Left (d : Disk) (here : Nat) (draft : String) (r r' : Watched Machine) : Prop :=
  (r'.base.workingDir = here ∧ r'.base.disk = d ∧ (WasOpened draft r' → WasOpened draft r)) ∨
    ∃ home name file bytes, Drafting d here draft home name file bytes r'.base

/-- A file is replaced only if its draft could be opened. -/
theorem leads_of_replaceFile (hsound : r.base.disk.Sound)
    (hinside : r.base.workingDir < r.base.disk.directories.size)
    (hlink : ¬Disk.EndsAtLink (r.base.disk.locate .name r.base.workingDir draft))
    (h : replaceFile (m := StateM (Watched Machine)) draft path text r = (.ok (), r')) :
    ∃ home name, r.base.disk.Leads r.base.workingDir draft home name := by
  obtain ⟨opened, r₁, hopened, h⟩ := StateM.exists_of_bind_apply h
  obtain ⟨answer₁, s₁, hopen, rfl, rfl⟩ := Watched.exists_of_openFresh hopened
  rcases openFresh_drafting hsound hinside hlink hopen with
    ⟨fault, rfl, -, -⟩ | ⟨file, home, name, rfl, hdraft⟩
  · cases h
  · exact ⟨home, name, hdraft.leads⟩

/-- To replace a file works, or leaves the file alone. -/
theorem replaceFile_outcome {answer : Except IoFault Unit} {P : Machine → Prop}
    (hready : Ready r.base.disk r.base.workingDir path draft)
    (hbefore : ∀ s, Shows r.base.workingDir path
      (r.base.disk.content r.base.workingDir path) s → P s)
    (hwhole : ∀ s, Shows r.base.workingDir path (some text.toUTF8) s → P s)
    (halways : Watched.Always P r)
    (h : replaceFile (m := StateM (Watched Machine)) draft path text r = (answer, r')) :
    Watched.Always P r' ∧
      (answer = .ok () ∧ Shows r.base.workingDir path (some text.toUTF8) r'.base ∧
          r'.base.disk.entryAt? r.base.workingDir draft = none ∨
        (∃ fault, answer = .error fault) ∧ Left r.base.disk r.base.workingDir draft r r') := by
  -- up to the renaming only the draft changes, so the file is as it was
  have hdrafting {home : Nat} {name : String} {file : OpenFile} {bytes : ByteArray} {s : Machine}
      (hdraft : Drafting r.base.disk r.base.workingDir draft home name file bytes s) : P s :=
    hbefore s (hdraft.shows hready.sound hready.clear)
  have hleft {home : Nat} {name : String} {file : OpenFile} {bytes : ByteArray}
      (hdraft : Drafting r.base.disk r.base.workingDir draft home name file bytes r'.base) :
      Left r.base.disk r.base.workingDir draft r r' := .inr ⟨home, name, file, bytes, hdraft⟩
  unfold replaceFile at h
  obtain ⟨opened, r₁, hopened, h⟩ := StateM.exists_of_bind_apply h
  obtain ⟨answer₁, s₁, hopen, rfl, rfl⟩ := Watched.exists_of_openFresh hopened
  rcases openFresh_drafting hready.sound hready.inside hready.clear.link hopen with
    ⟨fault, rfl, hhere, hdisk⟩ | ⟨file, home, name, rfl, hdraft₁⟩
  · cases h
    refine ⟨halways.after (hbefore _ ⟨hhere, by rw [hdisk]⟩) _ _,
      .inr ⟨⟨fault, rfl⟩, .inl ⟨hhere, hdisk, fun hopened => ?_⟩⟩⟩
    exact wasOpened_after hopened (.inr rfl)
  replace halways := halways.after (hdrafting hdraft₁) (.openFresh draft) true
  obtain ⟨written, r₂, hwritten, h⟩ := StateM.exists_of_bind_apply h
  obtain ⟨s₂, hwrite, rfl⟩ := Watched.exists_of_note hwritten
  obtain ⟨bytes, hdraft₂, hdone⟩ := hdraft₁.write hwrite
  replace halways := halways.after (hdrafting hdraft₂) (.write draft) written.fault.isNone
  cases hfault : written.fault with
  | some fault =>
      rw [hfault] at h halways
      cases h
      exact ⟨halways, .inr ⟨⟨fault, rfl⟩, hleft hdraft₂⟩⟩
  | none =>
      obtain rfl : bytes = text.toUTF8 := (hdone hfault).trans ByteArray.empty_append
      rw [hfault] at h halways
      obtain ⟨synced, r₃, hsynced, h⟩ := StateM.exists_of_bind_apply h
      obtain ⟨s₃, hsync, rfl⟩ := Watched.exists_of_note hsynced
      obtain ⟨hdraft₃, hstored⟩ := hdraft₂.sync hsync
      replace halways := halways.after (hdrafting hdraft₃) (.sync draft) synced.isOk
      cases synced with
      | error fault =>
          cases h
          exact ⟨halways, .inr ⟨⟨fault, rfl⟩, hleft hdraft₃⟩⟩
      | ok done =>
          obtain ⟨s₄, hrename, rfl⟩ := Watched.exists_of_note h
          rcases hdraft₃.rename hready (hstored rfl) hrename with
            ⟨fault, rfl, hdraft₄⟩ | ⟨rfl, hshows, hgone⟩
          · exact ⟨halways.after (hdrafting hdraft₄) _ _, .inr ⟨⟨fault, rfl⟩, hleft hdraft₄⟩⟩
          · exact ⟨halways.after (hwhole _ hshows) _ _, .inl ⟨rfl, hshows, hgone⟩⟩

/-- To remove a draft leaves the file alone. -/
theorem Left.remove {r₀ : Watched Machine} {answer : Except IoFault Unit} {s' : Machine}
    (h : Left d here draft r₀ r) (hready : Ready d here path draft)
    (hremoved : Host.remove (m := StateM Machine) draft r.base = (answer, s')) :
    Shows here path (d.content here path) s' ∧
      ((WasOpened draft r → WasOpened draft r₀) ∨
        (r.base.Works (.remove draft) → s'.disk.isThere here draft = false)) := by
  obtain ⟨hhere, hcases⟩ := Machine.remove_cases hremoved
  rcases h with ⟨hplace, hdisk, hopened⟩ | ⟨home, name, file, bytes, hdraft⟩
  · refine ⟨⟨hhere.trans hplace, ?_⟩, .inl hopened⟩
    rcases hcases with ⟨fault, rfl, hsame⟩ | ⟨rfl, hgone⟩
    · rw [hsame, hdisk]
    · rw [hplace, hdisk] at hgone
      obtain ⟨home, name, entry, hplace, -, -⟩ := Disk.remove_eq_ok hgone
      have hleads : d.Leads here draft home name := by
        rw [Disk.Leads, Disk.find?_of_locate (by decide) hplace, hplace]
      refine hready.clear.content_eq hready.sound (.inr ⟨home, name, hleads, ?_⟩)
      exact (Disk.OnlyAt.refl hready.sound home name).remove hleads hready.clear.link hgone
  · refine ⟨⟨hhere.trans hdraft.workingDir, ?_⟩, .inr fun hworks => ?_⟩
    · refine hready.clear.content_eq hready.sound (.inr ⟨home, name, hdraft.leads, ?_⟩)
      rcases hcases with ⟨fault, rfl, hsame⟩ | ⟨rfl, hgone⟩
      · rw [hsame]
        exact hdraft.only
      · rw [hdraft.workingDir] at hgone
        exact hdraft.only.remove hdraft.leads hready.clear.link hgone
    · have hgone : r.base.disk.remove here draft = .ok (r.base.disk.erase home name) :=
        Disk.remove_of_isOpen (hdraft.leads.sameWays hdraft.only.ways) hdraft.isOpen
      rw [Machine.remove_of_works hworks, hdraft.workingDir, hgone] at hremoved
      obtain ⟨directory, other, hmisses⟩ := Disk.misses_of_remove hgone
      cases hremoved
      exact Disk.isThere_of_misses hmisses

end

/-! ## Writing -/

/-- The names of a path and of its draft differ in the last one only. -/
theorem siblings_draftPath {path name : String} (here : Nat)
    (hfile : Path.fileName? path = some name) :
    ∃ front last last', Path.names path = front ++ [last] ∧
      Path.names (draftPath path) = front ++ [last'] ∧
      Disk.start here (draftPath path) = Disk.start here path := by
  obtain ⟨front, hnames, hlast⟩ := Path.names_of_fileName? hfile
  obtain ⟨last', -, hnames', habsolute⟩ := Path.names_draftPath hnames hlast
  exact ⟨front, name, last', hnames, hnames', by rw [Disk.start, Disk.start, habsolute]⟩

/-- A path has a file name if its draft can be opened. -/
theorem fileName?_of_leads {d : Disk} {here home : Nat} {path name : String}
    (h : d.Leads here (draftPath path) home name) : ∃ last, Path.fileName? path = some last := by
  cases hfile : Path.fileName? path with
  | some last => exact ⟨last, rfl⟩
  | none =>
      have hsame : draftPath path = path := by rw [draftPath, Path.withExtension, hfile]
      rw [hsame] at h
      obtain ⟨front, links, hsteps, hdot, hdots, -, -, -, -⟩ := Disk.way_of_locate h
      have hnames : (Path.names path).getLast? = some name := by
        rw [Path.names_eq_filter_steps, hsteps, List.filter_append]
        simp [hdot]
      rw [Path.fileName?, hnames] at hfile
      simp [hdots] at hfile

/-- A path with a file name is ready once the directories for it were created. -/
theorem createDirs_ready {d : Disk} {here : Nat} {path name : String}
    (hfile : Path.fileName? path = some name) (hsound : d.Sound)
    (hinside : here < d.directories.size)
    (hback : ".." ∈ Path.names path → d.isDirectory here ((Path.parent? path).getD "") = true)
    (hclear : d.Clear here path (draftPath path)) :
    (d.createDirs here ((Path.parent? path).getD "")).2.content here path =
        d.content here path ∧
      ((d.createDirs here ((Path.parent? path).getD "")).1 = .ok () →
        Ready (d.createDirs here ((Path.parent? path).getD "")).2 here path (draftPath path)) := by
  obtain ⟨front, hnames, hlast⟩ := Path.names_of_fileName? hfile
  obtain ⟨up, hparent, hup, hpart, -, -⟩ := Path.parent_names hnames
  obtain ⟨last', hne, hnames', habsolute⟩ := Path.names_draftPath hnames hlast
  have hstart : Disk.start here (draftPath path) = Disk.start here path := by
    rw [Disk.start, Disk.start, habsolute]
  rw [hparent, Option.getD_some] at hback ⊢
  obtain ⟨hsame, hready⟩ := Disk.createDirs_clear hsound hinside hnames hnames' hne hlast hstart hup
    hpart hback hclear
  refine ⟨hsame, fun hmade => ?_⟩
  obtain ⟨hsound', hinside', hclear'⟩ := hready hmade
  exact ⟨hsound', hinside', hclear', siblings_draftPath here hfile⟩

theorem draftPath_ne {path name : String} (hfile : Path.fileName? path = some name) :
    draftPath path ≠ path := by
  obtain ⟨front, hnames, hlast⟩ := Path.names_of_fileName? hfile
  obtain ⟨last', hne, hnames', -⟩ := Path.names_draftPath hnames hlast
  intro hsame
  rw [hsame, hnames] at hnames'
  obtain ⟨-, hother⟩ := List.append_inj' hnames' rfl
  exact hne (List.cons.inj hother).1.symm

section

variable {s : Machine} {path name : String} {state : HealthState} {answer : Except Fault Unit}
  {r : Watched Machine}

/-- The steps of a write: the directories, then the file, then the removal of a draft that did not
become the file. -/
theorem write_steps
    (h : write (m := StateM (Watched Machine)) path state (.opening s) = (answer, r)) :
    ∃ made s₁,
      Host.createDirs (m := StateM Machine) ((Path.parent? path).getD "") s = (made, s₁) ∧
      let r₁ := (Watched.opening s).after (.createDirs ((Path.parent? path).getD "")) made.isOk s₁
      ((∃ fault, made = .error fault) ∧ (∃ fault, answer = .error fault) ∧ r = r₁ ∨
        made = .ok () ∧ ∃ replaced r₂,
          replaceFile (m := StateM (Watched Machine)) (draftPath path) path state.toJson.pretty r₁ =
            (replaced, r₂) ∧
          (replaced = .ok () ∧ answer = .ok () ∧ r = r₂ ∨
            (∃ fault, replaced = .error fault) ∧ (∃ fault, answer = .error fault) ∧
              ∃ removed s₃,
                Host.remove (m := StateM Machine) (draftPath path) r₂.base = (removed, s₃) ∧
                r = r₂.after (.remove (draftPath path)) removed.isOk s₃)) := by
  unfold write at h
  obtain ⟨made, r₁, hmade, h⟩ := StateM.exists_of_bind_apply h
  obtain ⟨s₁, hmake, rfl⟩ := Watched.exists_of_note hmade
  refine ⟨made, s₁, hmake, ?_⟩
  cases made with
  | error fault =>
      cases h
      exact .inl ⟨⟨fault, rfl⟩, ⟨_, rfl⟩, rfl⟩
  | ok done =>
      obtain ⟨replaced, r₂, hreplaced, h⟩ := StateM.exists_of_bind_apply h
      refine .inr ⟨rfl, replaced, r₂, hreplaced, ?_⟩
      cases replaced with
      | ok done =>
          cases h
          exact .inl ⟨rfl, rfl, rfl⟩
      | error fault =>
          obtain ⟨removed, r₃, hremoved, h⟩ := StateM.exists_of_bind_apply h
          obtain ⟨s₃, hremove, rfl⟩ := Watched.exists_of_note hremoved
          cases h
          exact .inr ⟨⟨fault, rfl⟩, ⟨_, rfl⟩, removed, s₃, hremove, rfl⟩

/-- What is found at the path of a state file while it is written. -/
def BeforeOrWhole (s : Machine) (path : String) (state : HealthState) (s' : Machine) : Prop :=
  s'.disk.content s.workingDir path = s.disk.content s.workingDir path ∨
    s'.disk.content s.workingDir path = some state.toJson.pretty.toUTF8

theorem write_outcome (hfile : Path.fileName? path = some name) (hsound : s.disk.Sound)
    (hinside : s.workingDir < s.disk.directories.size)
    (hback : ".." ∈ Path.names path →
      s.disk.isDirectory s.workingDir ((Path.parent? path).getD "") = true)
    (hclear : s.disk.Clear s.workingDir path (draftPath path))
    (h : write (m := StateM (Watched Machine)) path state (.opening s) = (answer, r)) :
    Watched.Always (BeforeOrWhole s path state) r ∧
      (answer = .ok () ∧
          Shows s.workingDir path (some state.toJson.pretty.toUTF8) r.base ∧
          r.base.disk.isThere s.workingDir (draftPath path) = false ∨
        (∃ fault, answer = .error fault) ∧
          Shows s.workingDir path (s.disk.content s.workingDir path) r.base ∧
          (WasOpened (draftPath path) r → (∀ deed ∈ r.deeds,
              deed.operation = .remove (draftPath path) →
                deed.before.Works (.remove (draftPath path))) →
            r.base.disk.isThere s.workingDir (draftPath path) = false)) := by
  obtain ⟨hsame, hready⟩ := createDirs_ready hfile hsound hinside hback hclear
  have hopening : Watched.Always (BeforeOrWhole s path state) (.opening s) :=
    fun _ hmem => absurd hmem List.not_mem_nil
  obtain ⟨made, s₁, hmake, hsteps⟩ := write_steps h
  obtain ⟨hplace, hcases⟩ := Machine.createDirs_cases hmake
  -- new directories change nothing at the path, and the draft was not opened yet
  have hcontent : s₁.disk.content s.workingDir path = s.disk.content s.workingDir path := by
    rcases hcases with ⟨fault, -, hdisk⟩ | hmade
    · rw [hdisk]
    · rw [← hsame, ← hmade]
  have hbefore : BeforeOrWhole s path state s₁ := Or.inl hcontent
  have halways₁ := hopening.after hbefore (.createDirs ((Path.parent? path).getD "")) made.isOk
  have hnever : ¬WasOpened (draftPath path)
      (Watched.after (.opening s) (.createDirs ((Path.parent? path).getD "")) made.isOk s₁) := by
    intro hopened
    obtain ⟨_, hmem, -⟩ := wasOpened_after hopened (.inl nofun)
    cases hmem
  rcases hsteps with ⟨-, hfailed, rfl⟩ | ⟨rfl, replaced, r₂, hreplaced, hend⟩
  · exact ⟨halways₁, .inr ⟨hfailed, ⟨hplace, hcontent⟩, fun hopened => absurd hopened hnever⟩⟩
  have hready₁ : Ready s₁.disk s₁.workingDir path (draftPath path) := by
    rcases hcases with ⟨fault, hfailed, -⟩ | hmade
    · cases hfailed
    · rw [← hmade] at hready
      exact hplace ▸ hready rfl
  have hkeeps (s' : Machine) (h : Shows s₁.workingDir path
      (s₁.disk.content s₁.workingDir path) s') : BeforeOrWhole s path state s' :=
    Or.inl (hplace ▸ h.2.trans (hplace ▸ hcontent))
  have hputs (s' : Machine) (h : Shows s₁.workingDir path
      (some state.toJson.pretty.toUTF8) s') : BeforeOrWhole s path state s' :=
    Or.inr (hplace ▸ h.2)
  obtain ⟨halways₂, houtcome⟩ := replaceFile_outcome hready₁ hkeeps hputs halways₁ hreplaced
  rcases hend with ⟨rfl, rfl, rfl⟩ | ⟨⟨fault, rfl⟩, hfailed, removed, s₃, hremove, rfl⟩
  · rcases houtcome with ⟨-, hshows, hgone⟩ | ⟨⟨fault, hfault⟩, -⟩
    · refine ⟨halways₂, .inl ⟨rfl, hplace ▸ hshows, ?_⟩⟩
      rw [Disk.isThere, ← hplace]
      exact congrArg Option.isSome hgone
    · cases hfault
  · rcases houtcome with ⟨hok, -⟩ | ⟨-, hleft⟩
    · cases hok
    -- the draft is removed, and that changes nothing at the path either
    obtain ⟨hshows, hgone⟩ := hleft.remove hready₁ hremove
    refine ⟨halways₂.after (hkeeps s₃ hshows) _ _, .inr ⟨hfailed, ?_, ?_⟩⟩
    · exact ⟨hshows.1.trans hplace, hplace ▸ hshows.2.trans (hplace ▸ hcontent)⟩
    · intro hopened hworks
      rcases hgone with hnew | hgone
      · exact absurd (hnew (wasOpened_after hopened (.inl nofun))) hnever
      · rw [← hplace]
        exact hgone (hworks _ (List.mem_append_right _ List.mem_cons_self) rfl)

/-- What was written without a fault is found at the path, if nothing is in the way of the draft
once the directories were created. -/
theorem shows_of_write {s' : Machine} (hsound : s.disk.Sound)
    (hinside : s.workingDir < s.disk.directories.size)
    (hclear : (s.disk.createDirs s.workingDir ((Path.parent? path).getD "")).2.Clear
      s.workingDir path (draftPath path))
    (hwritten : write (m := StateM Machine) path state s = (.ok (), s')) :
    Shows s.workingDir path (some state.toJson.pretty.toUTF8) s' := by
  have hwatched := reflects_write Watched.overlay path state (.opening s)
  generalize hrun : write (m := StateM (Watched Machine)) path state (.opening s) = outcome
    at hwatched
  obtain ⟨answer, r⟩ := outcome
  cases hwritten.symm.trans hwatched
  obtain ⟨made, s₁, hmake, ⟨-, ⟨fault, hfailed⟩, -⟩ | ⟨rfl, replaced, r₂, hreplaced, hend⟩⟩ :=
    write_steps hrun
  · cases hfailed
  obtain ⟨hhere, hcases⟩ := Machine.createDirs_cases hmake
  have hdisk : s₁.disk = (s.disk.createDirs s.workingDir ((Path.parent? path).getD "")).2 := by
    rcases hcases with ⟨fault, hfault, -⟩ | hmade
    · cases hfault
    · exact congrArg Prod.snd hmade
  obtain ⟨hsound₁, hinside₁⟩ := hsound.createRow hinside
    (((Path.parent? path).getD "").length + 1) ((Path.parent? path).getD "")
  rw [← Disk.createDirs, ← hdisk] at hsound₁ hinside₁
  rw [← hhere] at hinside₁ ⊢
  rw [← hdisk, ← hhere] at hclear
  rcases hend with ⟨rfl, -, rfl⟩ | ⟨-, ⟨fault, hfault⟩, -⟩
  · obtain ⟨home, other, hleads⟩ := leads_of_replaceFile hsound₁ hinside₁ hclear.link hreplaced
    obtain ⟨last, hfile⟩ := fileName?_of_leads hleads
    have hready : Ready s₁.disk s₁.workingDir path (draftPath path) :=
      ⟨hsound₁, hinside₁, hclear, siblings_draftPath _ hfile⟩
    obtain ⟨-, ⟨-, hshows, -⟩ | ⟨⟨fault, hfault⟩, -⟩⟩ := replaceFile_outcome
      (P := fun _ => True) hready (fun _ _ => trivial) (fun _ _ => trivial)
      (fun _ _ => trivial) hreplaced
    · exact hshows
    · cases hfault
  · cases hfault

end

/-- To write a state file works as a whole, or changes nothing at its path. -/
theorem write_atomic {s : Machine} {path name : String} (state : HealthState)
    (hfile : Path.fileName? path = some name) (hsound : s.disk.Sound)
    (hinside : s.workingDir < s.disk.directories.size)
    (hback : ".." ∈ Path.names path →
      s.disk.isDirectory s.workingDir ((Path.parent? path).getD "") = true)
    (hclear : s.disk.Clear s.workingDir path (draftPath path)) :
    let outcome := write (m := StateM (Watched Machine)) path state (.opening s)
    let before := s.disk.content s.workingDir path
    let whole := some state.toJson.pretty.toUTF8
    let disk := outcome.2.base.disk
    write (m := StateM Machine) path state s = (outcome.1, outcome.2.base) ∧
      draftPath path ≠ path ∧
      (∀ deed ∈ outcome.2.deeds,
        deed.after.disk.content s.workingDir path = before ∨
          deed.after.disk.content s.workingDir path = whole) ∧
      (outcome.1 = .ok () → disk.content s.workingDir path = whole ∧
        disk.isThere s.workingDir (draftPath path) = false) ∧
      ∀ fault, outcome.1 = .error fault → disk.content s.workingDir path = before ∧
        (WasOpened (draftPath path) outcome.2 →
          (∀ deed ∈ outcome.2.deeds, deed.operation = .remove (draftPath path) →
            deed.before.Works (.remove (draftPath path))) →
          disk.isThere s.workingDir (draftPath path) = false) := by
  intro outcome before whole disk
  refine ⟨reflects_write Watched.overlay path state (.opening s), draftPath_ne hfile, ?_⟩
  obtain ⟨halways, hcases⟩ := write_outcome hfile hsound hinside hback hclear
    (rfl : write (m := StateM (Watched Machine)) path state (.opening s) = outcome)
  refine ⟨halways, ?_, ?_⟩
  · intro hok
    rcases hcases with ⟨-, hshows, hgone⟩ | ⟨⟨fault, hfailed⟩, -⟩
    · exact ⟨hshows.2, hgone⟩
    · cases hok.symm.trans hfailed
  · intro fault hfailed
    rcases hcases with ⟨hok, -⟩ | ⟨-, hshows, hgone⟩
    · cases hok.symm.trans hfailed
    · exact ⟨hshows.2, hgone⟩

/-- The state of a daemon that has not checked anything yet. -/
def firstState : HealthState := ⟨"0.1.0", 1, "t", "t", .active, 0, 0, .pending true⟩

/-- A machine with a state file on which nothing can be renamed. -/
def stubbornMachine : Machine :=
  { Machine.blank with
    disk := .ofFile "s.json" "old".toUTF8
    upsets := fun _ operation =>
      if operation = .rename "s.json.tmp" "s.json" then some ⟨.noSpace, 0, false⟩ else none }

theorem clear_stubbornMachine :
    stubbornMachine.disk.Clear stubbornMachine.workingDir "s.json" (draftPath "s.json") := by
  have hdraft : stubbornMachine.disk.locate .name Disk.root (draftPath "s.json") =
      .ok (.name Disk.root "s.json.tmp" none false) := by
    with_unfolding_all rfl
  have hplace (aim : Aim) (haim : aim ≠ .creation) :
      stubbornMachine.disk.locate aim Disk.root "s.json" =
        .ok (.name Disk.root "s.json" (some (.file 0)) false) := by
    cases aim with
    | name => with_unfolding_all rfl
    | target => with_unfolding_all rfl
    | creation => exact absurd rfl haim
  refine ⟨?_, ?_, ?_, ?_⟩
  · rintro ⟨_, _, _, _, hlink⟩
    cases hdraft.symm.trans hlink
  · intro home name hleads entry isMarked hsame
    cases hdraft.symm.trans hleads
    have hname := (hplace .target nofun).symm.trans hsame
    simp at hname
  · intro home name number hleads hfile
    cases hdraft.symm.trans hleads
    have hfree : stubbornMachine.disk.find? Disk.root "s.json.tmp" = none := by decide +kernel
    cases hfree.symm.trans hfile
  · intro home name target hlink
    cases (hplace .name nofun).symm.trans hlink

theorem write_atomic_on_stubbornMachine :
    let outcome := write (m := StateM (Watched Machine)) "s.json" firstState
      (.opening stubbornMachine)
    Path.fileName? "s.json" = some "s.json" ∧ stubbornMachine.disk.Sound ∧
      stubbornMachine.disk.Clear stubbornMachine.workingDir "s.json" (draftPath "s.json") ∧
      outcome.1.isOk = false ∧ WasOpened (draftPath "s.json") outcome.2 ∧
      outcome.2.base.disk.content Disk.root "s.json" = some "old".toUTF8 ∧
      outcome.2.base.disk.isThere Disk.root (draftPath "s.json") = false := by
  intro outcome
  have hfile : Path.fileName? "s.json" = some "s.json" := by decide +kernel
  have hsound : stubbornMachine.disk.Sound := Disk.sound_ofFile _ _
  have hfailed : outcome.1.isOk = false := by decide +kernel
  have hopened : WasOpened (draftPath "s.json") outcome.2 := by decide +kernel
  have hworks : ∀ deed ∈ outcome.2.deeds, deed.operation = .remove (draftPath "s.json") →
      deed.before.Works (.remove (draftPath "s.json")) := by
    decide +kernel
  have hbefore : stubbornMachine.disk.content stubbornMachine.workingDir "s.json" =
      some "old".toUTF8 := by decide +kernel
  obtain ⟨-, -, -, -, herror⟩ := write_atomic firstState hfile hsound Nat.zero_lt_one
    (by decide +kernel) clear_stubbornMachine
  obtain ⟨fault, hfault⟩ : ∃ fault, outcome.1 = .error fault := by
    cases hanswer : outcome.1 with
    | ok done =>
        rw [hanswer] at hfailed
        cases hfailed
    | error fault => exact ⟨fault, rfl⟩
  obtain ⟨hcontent, hgone⟩ := herror fault hfault
  exact ⟨hfile, hsound, clear_stubbornMachine, hfailed, hopened, hcontent.trans hbefore,
    hgone hopened hworks⟩

/-- A machine with a state file on which no new file can be made. -/
def fullMachine : Machine :=
  { Machine.blank with
    disk := .ofFile "s.json" "old".toUTF8
    upsets := fun _ operation =>
      if operation = .openFresh "a/../s.json.tmp" then some ⟨.noSpace, 0, false⟩ else none }

/-- A machine on which the state file and its draft are one file, with no room for any bytes. -/
def sharedMachine : Machine :=
  { Machine.blank with
    disk := (Disk.ofFile "s.json" "old".toUTF8).put Disk.root "s.json.tmp" (.file 0)
    upsets := fun _ operation =>
      if operation = .write "s.json.tmp" then some ⟨.noSpace, 0, false⟩ else none }

/-- A machine on which the state file is a link to a directory. -/
def linkedMachine : Machine :=
  { Machine.blank with
    disk := (Disk.empty.addDirectory Disk.root "a").put Disk.root "s.json" (.link "a") }

/-- A path that goes into a missing directory and back leads nowhere until the directory is
created, and then to a file that stood there all the time, also if the write fails.  A draft that
is the state file under another name is emptied.  A path through the link that is replaced leads
nowhere after that. -/
theorem write_not_atomic :
    ((fullMachine.disk.locate .name Disk.root (draftPath "a/../s.json")).isOk = false ∧
      fullMachine.disk.content Disk.root "a/../s.json" = none ∧
      (write (m := StateM Machine) "a/../s.json" firstState fullMachine).1.isOk = false ∧
      (write (m := StateM Machine) "a/../s.json" firstState fullMachine).2.disk.content Disk.root
        "a/../s.json" = some "old".toUTF8) ∧
    (sharedMachine.disk.find? Disk.root (draftPath "s.json") = some (.file 0) ∧
      sharedMachine.disk.content Disk.root "s.json" = some "old".toUTF8 ∧
      (write (m := StateM Machine) "s.json" firstState sharedMachine).1.isOk = false ∧
      (write (m := StateM Machine) "s.json" firstState sharedMachine).2.disk.content Disk.root
        "s.json" = some "".toUTF8) ∧
    linkedMachine.disk.find? Disk.root "s.json.tmp" = none ∧
      (write (m := StateM Machine) "s.json/../s.json" firstState linkedMachine).1.isOk = true ∧
      (write (m := StateM Machine) "s.json/../s.json" firstState linkedMachine).2.disk.content
        Disk.root "s.json/../s.json" = none := by
  decide +kernel

end HealthState

end Backlog
