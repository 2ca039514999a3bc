import Backlog.Proofs.Activity.Buffered
import Backlog.Proofs.Activity.Chain
import Backlog.Proofs.Activity.Shelf
import Backlog.Proofs.Host.Machine

/-!
# Lines through rotations

A line of a log waits in a buffer, is in the file that is written, moves from one number to the
next, and goes with the file that has the highest number.  On a machine on which operations work
nothing else becomes of it.  The books about that are in order at any time: the files that were
removed, the files that are there, and the buffer are together what the log held at first, with
all lines that were written behind it (`Accounts`).

The deeds of a watched machine tell what the files held that were removed.  A rotation is one
such removal and a row of renamings (`OnFile.rotates`), and all that a writer can be asked for
keeps the books in order (`InOrder.servedAll`).
-/

namespace Backlog

namespace LogWriter

/-- How many files a log keeps aside. -/
def kept (settings : LogSettings) : Nat := max settings.maxRotated 1

/-- Where the file is that goes next. -/
def oldest (settings : LogSettings) : String := rotatedName settings.path (kept settings)

theorem kept_pos (settings : LogSettings) : 1 ≤ kept settings := Nat.le_max_right _ _

theorem slotName_kept (settings : LogSettings) :
    slotName settings.path (kept settings) = oldest settings := by
  obtain ⟨n, hn⟩ : ∃ n, kept settings = n + 1 := ⟨kept settings - 1, by
    have hpos := kept_pos settings
    omega⟩
  rw [oldest, hn]
  rfl

/-- What the files held that were removed under a path, in the order of their removal. -/
def removed (path : String) (deeds : List (Deed Machine)) : List ByteArray :=
  deeds.filterMap fun deed =>
    if deed.operation = .remove path ∧ deed.isDone = true then
      deed.before.disk.content deed.before.workingDir path
    else none

theorem removed_concat (path : String) (deeds : List (Deed Machine)) (deed : Deed Machine) :
    removed path (deeds ++ [deed]) = removed path deeds ++ removed path [deed] :=
  List.filterMap_append

/-- The line that a call writes, if it writes one. -/
def Call.line : Call → ByteArray
  | .write entry => (entry.line ++ "\n").toUTF8
  | .flush | .sync | .recover => .empty

/-! ## Operations that remove nothing -/

/-- Operations that left this disk, and removed nothing under a path. -/
structure Leaves (path : String) (r r' : Watched Machine) (disk : Disk) : Prop where
  steady : r'.base.Steady
  here : r'.base.workingDir = r.base.workingDir
  disk : r'.base.disk = disk
  removed : removed path r'.deeds = removed path r.deeds

variable {path : String} {r r' r'' : Watched Machine} {disk disk' made : Disk}

theorem Leaves.refl (hsteady : r.base.Steady) : Leaves path r r r.base.disk :=
  ⟨hsteady, rfl, rfl, rfl⟩

theorem Leaves.trans (h : Leaves path r r' disk) (h' : Leaves path r' r'' disk') :
    Leaves path r r'' disk' :=
  ⟨h'.steady, h'.here.trans h.here, h'.disk, h'.removed.trans h.removed⟩

theorem leaves_after (hsteady : r.base.Steady) {o : FileOperation}
    (hother : o ≠ .remove path) (isDone : Bool) (disk : Disk) :
    Leaves path r (r.after o isDone (r.base.stepTo disk)) disk := by
  refine ⟨hsteady.stepTo disk, rfl, rfl, ?_⟩
  have hnone : removed path [⟨o, isDone, r.base, r.base.stepTo disk⟩] = [] := by
    simp [removed, hother]
  rw [Watched.after, removed_concat, hnone, List.append_nil]

/-- A file is opened once its directories were created. -/
theorem openSink_of_openFile {up : String} {file : OpenFile} (hsteady : r.base.Steady)
    (hparent : Path.parent? path = some up)
    (hcreate : r.base.disk.createDirs r.base.workingDir up = (.ok (), made))
    (hopen : made.openFile r.base.workingDir path = .ok (file, disk)) (isFallback : Bool)
    (top : String) : ∃ r', openSink (m := StateM (Watched Machine)) path isFallback r =
        (some (.file ⟨⟨path, file⟩, .empty⟩ path (disk.sizeOf file) isFallback), r') ∧
      Leaves top r r' disk := by
  have hmade : Host.createDirs (m := StateM Machine) up r.base = (.ok (), r.base.stepTo made) := by
    rw [hsteady.createDirs, hcreate]
  have hmakes : Leaves top r (r.after (.createDirs up) true (r.base.stepTo made)) _ :=
    leaves_after hsteady (o := .createDirs up) nofun true _
  have hopened : Host.openAppend (m := StateM Machine) path (r.base.stepTo made) =
      (.ok (file, disk.sizeOf file), (r.base.stepTo made).stepTo disk) := by
    rw [(hsteady.stepTo _).openAppend]
    simp only [Machine.disk_stepTo, Machine.workingDir_stepTo, hopen]
  refine ⟨_, ?_, hmakes.trans
    (leaves_after hmakes.steady (o := .openAppend path) nofun true disk)⟩
  unfold openSink
  rw [hparent]
  change (Watched.note (.createDirs up) Except.isOk (Host.createDirs (m := StateM Machine) up)
    >>= _) r = _
  rw [StateM.bind_apply, Watched.note_of_eq hmade]
  change ((Watched.note (.openAppend path) Except.isOk
    (Host.openAppend (m := StateM Machine) path) >>= _) >>= _) _ = _
  rw [StateM.bind_apply, StateM.bind_apply, Watched.note_of_eq hopened]
  rfl

/-- The file of a log is opened where it is, or it is created. -/
theorem openSink_of_prepared {home keep : Nat} {name : String} (hsteady : r.base.Steady)
    (h : Prepared r.base.disk r.base.workingDir path home name keep made) (isFallback : Bool)
    (top : String) : ∃ number r', openSink (m := StateM (Watched Machine)) path isFallback r =
        (some (.file ⟨⟨path, path, some number, false⟩, .empty⟩ path
          (r'.base.disk.bytesOf number).size isFallback), r') ∧
      Leaves top r r' r'.base.disk ∧
      (r'.base.disk = made ∧ made.find? home name = some (.file number) ∨
        made.contents.size = number ∧ made.find? home name = none ∧
          Renewed made home name keep Nat.succ r'.base.disk) := by
  obtain ⟨up, hparent, hcreate⟩ := h.creates
  have hshelf := h.shelf
  rcases hshelf.files 0 (Nat.zero_le _) with hfree | ⟨number, hlive⟩
  · -- nothing moves here: each place is filled from itself
    have hrenewed : Renewed made home name keep Nat.succ _ :=
      (Filed.refl _ _ _ _).reopen hshelf.home_lt (fun i => Nat.le_refl _)
        (fun _ _ => Nat.succ.inj) hfree fun _ _ => rfl
    obtain ⟨r', hopened, hleaves⟩ := openSink_of_openFile hsteady hparent hcreate
      (Disk.openFile_of_none hshelf.leads hfree) isFallback top
    have hdisk := hleaves.disk
    rw [← hdisk] at hopened hleaves hrenewed
    exact ⟨_, r', hopened, hleaves, .inr ⟨rfl, hfree, hrenewed⟩⟩
  · obtain ⟨r', hopened, hleaves⟩ := openSink_of_openFile hsteady hparent hcreate
      (Disk.openFile_of_file hshelf.leads hlive) isFallback top
    rw [← hleaves.disk] at hopened
    exact ⟨number, r', hopened, hleaves.disk.symm ▸ hleaves, .inl ⟨hleaves.disk, hlive⟩⟩

/-! ## Files in use -/

/-- A file of a watched machine, and what waits for it. -/
abbrev WatchedBuffer : Type := BufferedFile (WatchedFile OpenFile)

/-- A log is written to a file.  `taken` is what its files held at first with all that came to
them since, also if it was lost with a file that was removed. -/
structure OnFile (s : Machine) (settings : LogSettings) (home : Nat) (name : String)
    (taken : ByteArray) (file : WatchedFile OpenFile) (r : Watched Machine) : Prop where
  steady : r.base.Steady
  here : r.base.workingDir = s.workingDir
  shelf : Shelf r.base.disk s.workingDir settings.path home name (kept settings)
  untouched : Untouched s.disk r.base.disk home name (kept settings)
  live : ∃ number, r.base.disk.find? home name = some (.file number) ∧
    file.file.number = some number
  room : file.file.isFull = false
  taken : joined (removed (oldest settings) r.deeds) ++
    stored r.base.disk s.workingDir settings.path (kept settings) = taken

/-- What came to the files of a log and what waits is this text. -/
def Accounts (s : Machine) (settings : LogSettings) (home : Nat) (name : String)
    (text : ByteArray) (b : WatchedBuffer) (r : Watched Machine) : Prop :=
  ∃ taken, OnFile s settings home name taken b.file r ∧ taken ++ b.pending = text

/-- A writer is on the first file of its log, and the books are in order. -/
def InOrder (s : Machine) (settings : LogSettings) (home : Nat) (name : String)
    (text : ByteArray) (w : WatchedWriter Machine) (r : Watched Machine) : Prop :=
  ∃ (b : WatchedBuffer) (size : Nat) (lastSync : Instant),
    w = ⟨settings, .file b settings.path size false, lastSync⟩ ∧
      Accounts s settings home name text b r

variable {s : Machine} {settings : LogSettings} {home : Nat} {name : String}
  {taken text bytes : ByteArray} {file : WatchedFile OpenFile} {b : WatchedBuffer}

theorem OnFile.leaves (h : OnFile s settings home name taken file r)
    (hleaves : Leaves (oldest settings) r r' r.base.disk) :
    OnFile s settings home name taken file r' where
  steady := hleaves.steady
  here := hleaves.here.trans h.here
  shelf := hleaves.disk ▸ h.shelf
  untouched := hleaves.disk ▸ h.untouched
  live := hleaves.disk ▸ h.live
  room := h.room
  taken := by rw [hleaves.removed, hleaves.disk, h.taken]

theorem OnFile.written (h : OnFile s settings home name taken file r) (bytes : ByteArray) :
    ∃ r', Host.write (m := StateM (Watched Machine)) file bytes r = (⟨bytes.size, none⟩, r') ∧
      OnFile s settings home name (taken ++ bytes) file r' := by
  obtain ⟨number, hlive, hnumber⟩ := h.live
  obtain ⟨hshelf, huntouched, hstored⟩ := h.shelf.append hlive bytes
  have hleaves : Leaves (oldest settings) r
      (r.after (.write file.path) true (r.base.stepTo (r.base.disk.append number bytes))) _ :=
    leaves_after h.steady (o := .write file.path) (fun h => by cases h) true _
  refine ⟨_, Watched.note_of_eq (h.steady.write_file hnumber h.room bytes), hleaves.steady,
    hleaves.here.trans h.here, hshelf, h.untouched.trans huntouched, ⟨number, hlive, hnumber⟩,
    h.room, ?_⟩
  rw [← h.taken, ByteArray.append_assoc, ← hstored]
  exact congrArg (fun parts => joined parts ++ _) hleaves.removed

/-- What comes to the live file of a log comes to the end of what the log held. -/
theorem takes_onFile : Takes (τ := Watched Machine) (OnFile s settings home name) where
  write h bytes := h.written bytes
  sync {taken file r} h := by
    obtain ⟨outcome, hsynced⟩ := h.steady.sync file.file
    exact ⟨outcome, _, Watched.note_of_eq hsynced, h.leaves
      (leaves_after h.steady (o := .sync file.path) nofun outcome.isOk _)⟩
  now r := ⟨r.base.now, rfl⟩

theorem inOrder_of_on {size : Nat} {w : WatchedWriter Machine}
    (h : On (OnFile s settings home name) settings settings.path false text size w r) :
    InOrder s settings home name text w r := by
  obtain ⟨b, lastSync, hw, haccounts⟩ := h
  exact ⟨b, size, lastSync, hw, haccounts⟩

theorem InOrder.on {w : WatchedWriter Machine} (h : InOrder s settings home name text w r) :
    ∃ size, On (OnFile s settings home name) settings settings.path false text size w r := by
  obtain ⟨b, size, lastSync, hw, haccounts⟩ := h
  exact ⟨size, b, lastSync, hw, haccounts⟩

/-! ## Rotations -/

section

variable {d : Disk} {here keep i n : Nat} {row : Nat → Option Entry}

/-- A file of the log moves up, if there is one, and its place is free then. -/
theorem Filed.renames (h : Filed d home name keep row r.base.disk)
    (hshelf : Shelf d here path home name keep) (hsteady : r.base.Steady)
    (hhere : r.base.workingDir = here) (hi : i + 1 ≤ keep)
    (hfile : row i = none ∨ ∃ number, row i = some (.file number)) (hfree : row (i + 1) = none)
    (top : String) :
    ∃ outcome r', Host.rename (m := StateM (Watched Machine)) (slotName path i)
        (slotName path (i + 1)) r = (outcome, r') ∧
      Filed d home name keep (moveUp i row) r'.base.disk ∧ Leaves top r r' r'.base.disk := by
  obtain ⟨disk, hmoved, hrename⟩ := h.rename hshelf hi hfile hfree
  have hanswer : ∃ outcome, Host.rename (m := StateM Machine) (slotName path i)
      (slotName path (i + 1)) r.base = (outcome, r.base.stepTo disk) := by
    rw [hsteady.rename, hhere]
    rcases hrename with hdone | ⟨rfl, fault, hfailed⟩
    · exact ⟨.ok (), by rw [hdone]⟩
    · exact ⟨.error fault, by rw [hfailed]⟩
  obtain ⟨outcome, hanswer⟩ := hanswer
  exact ⟨outcome, _, Watched.note_of_eq hanswer, hmoved,
    leaves_after hsteady (o := .rename _ _) nofun outcome.isOk disk⟩

/-- The files from a number down move up, from the highest number down. -/
theorem Filed.shifts (h : Filed d home name keep row r.base.disk)
    (hshelf : Shelf d here path home name keep) (hsteady : r.base.Steady)
    (hhere : r.base.workingDir = here) (hn : n + 1 ≤ keep)
    (hfiles : ∀ i ≤ n, row i = none ∨ ∃ number, row i = some (.file number))
    (hfree : row (n + 1) = none) (top : String) :
    ∃ r', shift (m := StateM (Watched Machine)) path n r = ((), r') ∧
      Filed d home name keep (shiftRow n row) r'.base.disk ∧ Leaves top r r' r'.base.disk := by
  induction n generalizing row r with
  | zero => exact ⟨r, rfl, h, .refl hsteady⟩
  | succ n ih =>
      obtain ⟨outcome, r₁, hrenamed, hmoved, hleaves⟩ :=
        h.renames hshelf hsteady hhere hn (hfiles (n + 1) (Nat.le_refl _)) hfree top
      have hfree₁ : moveUp (n + 1) row (n + 1) = none := by
        rw [moveUp, if_neg (by omega), if_pos rfl]
      have hfiles₁ : ∀ i ≤ n, moveUp (n + 1) row i = none ∨
          ∃ number, moveUp (n + 1) row i = some (.file number) := by
        intro i hi
        rw [moveUp, if_neg (by omega), if_neg (by omega)]
        exact hfiles i (by omega)
      obtain ⟨r', hshifted, hmoved', hleaves'⟩ :=
        ih hmoved hleaves.steady (hleaves.here.trans hhere) (by omega) hfiles₁ hfree₁
      refine ⟨r', ?_, hmoved', hleaves.trans hleaves'⟩
      rw [shift, StateM.bind_apply]
      change shift (m := StateM (Watched Machine)) path n
        (Host.rename (m := StateM (Watched Machine)) (slotName path (n + 1))
          (slotName path (n + 2)) r).2 = _
      rw [hrenamed]
      exact hshifted

end

/-- The row of a log without the file that has the highest number. -/
def withoutTop (row : Nat → Option Entry) (keep : Nat) : Nat → Option Entry :=
  fun i => if i = keep then none else row i

/-- After the last renaming of a rotation all files moved up, and the place of the file that is
written is free. -/
theorem moveUp_shiftRow (row : Nat → Option Entry) {keep : Nat} (hkeep : 1 ≤ keep) :
    let row' := shiftRow (keep - 1) (withoutTop row keep)
    (row' 0 = row 0 ∧ row' 1 = none) ∧ moveUp 0 row' 0 = none ∧
      ∀ i, i + 1 ≤ keep → moveUp 0 row' (i + 1) = row i := by
  have hfirst : shiftRow (keep - 1) (withoutTop row keep) 0 = row 0 := by
    rw [shiftRow_apply, if_neg (by omega), if_neg (by omega), withoutTop, if_neg (by omega)]
  refine ⟨⟨hfirst, ?_⟩, rfl, ?_⟩
  · rw [shiftRow_apply, if_neg (by omega), withoutTop]
    split_ifs <;> first | rfl | omega
  · intro i hi
    cases i with
    | zero => exact hfirst
    | succ i =>
        rw [moveUp, if_neg (by omega), if_neg (by omega), shiftRow_apply, if_pos (by omega),
          withoutTop, if_neg (by omega)]
        rfl

/-- What a removed file held is on record. -/
theorem joined_removed_after {isDone : Bool} {s' : Machine}
    (hfailed : isDone = false → r.base.disk.content r.base.workingDir path = none) :
    joined (removed path (r.after (.remove path) isDone s').deeds) =
      joined (removed path r.deeds) ++
        (r.base.disk.content r.base.workingDir path).getD .empty := by
  have hlast : joined (removed path [⟨.remove path, isDone, r.base, s'⟩]) =
      (r.base.disk.content r.base.workingDir path).getD .empty := by
    cases isDone with
    | false => simp [removed, hfailed rfl, joined]
    | true =>
        cases hcontent : r.base.disk.content r.base.workingDir path with
        | none => simp [removed, hcontent, joined]
        | some bytes => simp [removed, hcontent, joined]
  rw [Watched.after, removed_concat, joined_append, hlast]

/-- The file with the highest number goes, if there is one. -/
theorem OnFile.removesOldest (h : OnFile s settings home name taken file r) :
    ∃ outcome r', Host.remove (m := StateM (Watched Machine)) (oldest settings) r =
        (outcome, r') ∧ r'.base.Steady ∧ r'.base.workingDir = s.workingDir ∧
      Filed r.base.disk home name (kept settings)
        (withoutTop (fun i => r.base.disk.find? home (slotName name i)) (kept settings))
        r'.base.disk ∧
      joined (removed (oldest settings) r'.deeds) = joined (removed (oldest settings) r.deeds) ++
        (r.base.disk.content s.workingDir (oldest settings)).getD .empty := by
  have hleads := h.shelf.leads_slot (Nat.le_refl (kept settings))
  have hcontent := h.shelf.content_slot (Nat.le_refl (kept settings))
  have hfiled := Filed.refl r.base.disk home name (kept settings)
  rw [slotName_kept] at hleads hcontent
  rw [← h.here] at hleads hcontent ⊢
  rcases h.shelf.files _ (Nat.le_refl (kept settings)) with hfree | ⟨number, hfile⟩
  · have hanswer : Host.remove (m := StateM Machine) (oldest settings) r.base =
        (.error .notFound, r.base.stepTo r.base.disk) := by
      rw [h.steady.remove, Disk.remove_of_none hleads hfree]
    have hsame : withoutTop (fun i => r.base.disk.find? home (slotName name i)) (kept settings) =
        fun i => r.base.disk.find? home (slotName name i) := by
      funext i
      unfold withoutTop
      split_ifs with hi
      · rw [hi, hfree]
      · rfl
    refine ⟨_, _, Watched.note_of_eq hanswer, h.steady.stepTo _, rfl, ?_, ?_⟩
    · rw [hsame]
      exact hfiled
    · refine joined_removed_after fun _ => ?_
      rw [hcontent, hfree]
      rfl
  · have hanswer : Host.remove (m := StateM Machine) (oldest settings) r.base =
        (.ok (), r.base.stepTo (r.base.disk.erase home (slotName name (kept settings)))) := by
      rw [h.steady.remove, Disk.remove_of_file hleads hfile]
    refine ⟨_, _, Watched.note_of_eq hanswer, h.steady.stepTo _, rfl, ?_, ?_⟩
    · exact hfiled.erase (Nat.le_refl _) (h.shelf.endsWays (Nat.le_refl _))
    · exact joined_removed_after nofun

/-- Where a file was created, the writer is on it. -/
theorem OnFile.of_renewed {back : Nat → Nat} {d : Disk} {disk : Disk}
    (hshelf : Shelf d s.workingDir settings.path home name (kept settings))
    (huntouched : Untouched s.disk d home name (kept settings))
    (hrenewed : Renewed d home name (kept settings) back disk)
    (hsteady : r.base.Steady) (hhere : r.base.workingDir = s.workingDir)
    (hdisk : r.base.disk = disk) :
    OnFile s settings home name
      (joined (removed (oldest settings) r.deeds) ++
        stored disk s.workingDir settings.path (kept settings))
      ⟨settings.path, settings.path, some d.contents.size, false⟩ r where
  steady := hsteady
  here := hhere
  shelf := hdisk ▸ hrenewed.shelf hshelf
  untouched := hdisk ▸ huntouched.trans (hrenewed.untouched hshelf.sound)
  live := ⟨_, hdisk ▸ hrenewed.live, rfl⟩
  room := rfl
  taken := by rw [hdisk]

/-- The renamings of a rotation move all files up. -/
theorem OnFile.movesUp (h : OnFile s settings home name taken file r) :
    ∃ removal r₁ r₂ moving r',
      Host.remove (m := StateM (Watched Machine)) (oldest settings) r = (removal, r₁) ∧
      shift (m := StateM (Watched Machine)) settings.path (kept settings - 1) r₁ = ((), r₂) ∧
      Host.rename (m := StateM (Watched Machine)) settings.path (rotatedName settings.path 1) r₂ =
        (moving, r') ∧
      r'.base.Steady ∧ r'.base.workingDir = s.workingDir ∧
      (∃ row, Filed r.base.disk home name (kept settings) row r'.base.disk ∧ row 0 = none ∧
        ∀ i, i + 1 ≤ kept settings → row (i + 1) = r.base.disk.find? home (slotName name i)) ∧
      joined (removed (oldest settings) r'.deeds) = joined (removed (oldest settings) r.deeds) ++
        (r.base.disk.content s.workingDir (oldest settings)).getD .empty := by
  have hkeep := kept_pos settings
  obtain ⟨removal, r₁, hremoved, hsteady, hhere, hfiled, hlost⟩ := h.removesOldest
  obtain ⟨⟨hlast, hnext⟩, hfirst, hrow⟩ :=
    moveUp_shiftRow (fun i => r.base.disk.find? home (slotName name i)) hkeep
  generalize hrest : withoutTop (fun i => r.base.disk.find? home (slotName name i))
    (kept settings) = rest at hfiled hlast hnext hfirst hrow
  -- the highest place is free for the first of the renamings
  have hfree : rest (kept settings - 1 + 1) = none := by
    rw [← hrest, withoutTop, if_pos (Nat.sub_add_cancel hkeep)]
  have hfiles : ∀ i ≤ kept settings - 1,
      rest i = none ∨ ∃ number, rest i = some (.file number) := by
    intro i hi
    rw [← hrest, withoutTop, if_neg (by omega)]
    exact h.shelf.files i (by omega)
  obtain ⟨r₂, hshifted, hfiled₂, hleaves₂⟩ :=
    hfiled.shifts h.shelf hsteady hhere (by omega) hfiles hfree (oldest settings)
  obtain ⟨moving, r', hrenamed, hfiled', hleaves'⟩ :=
    hfiled₂.renames h.shelf hleaves₂.steady (hleaves₂.here.trans hhere) hkeep
      (hlast ▸ h.shelf.files 0 (Nat.zero_le _)) hnext (oldest settings)
  refine ⟨removal, r₁, r₂, moving, r', hremoved, hshifted, hrenamed, hleaves'.steady,
    hleaves'.here.trans (hleaves₂.here.trans hhere), ⟨_, hfiled', hfirst, hrow⟩, ?_⟩
  rw [hleaves'.removed, hleaves₂.removed, hlost]

/-- After a rotation the log is a fresh file.  Behind it are the files that it had before, but the
one with the highest number, and what that one held is on record. -/
theorem OnFile.rotates {own : LogSettings} {w : WatchedWriter Machine} {size : Nat}
    {isFallback : Bool} {lastSync : Instant} {r₁ : Watched Machine}
    (hflushed : flush (m := StateM (Watched Machine)) w r =
      (⟨own, .file ⟨file, .empty⟩ path size isFallback, lastSync⟩, r₁))
    (h : OnFile s { own with path } home name taken file r₁) :
    ∃ r', rotate (m := StateM (Watched Machine)) w r =
        (⟨own, .file ⟨⟨path, path, some r₁.base.disk.contents.size, false⟩, .empty⟩ path 0
          isFallback, lastSync⟩, r') ∧
      Renewed r₁.base.disk home name (kept own) id r'.base.disk ∧
      r'.base.Steady ∧ r'.base.workingDir = s.workingDir ∧
      joined (removed (oldest { own with path }) r'.deeds) =
        joined (removed (oldest { own with path }) r₁.deeds) ++
          (r₁.base.disk.content s.workingDir (oldest { own with path })).getD .empty := by
  obtain ⟨removal, r₂, r₃, moving, r₄, hremoved, hshifted, hrenamed, hsteady, hhere,
    ⟨row, hfiled, hfirst, hrow⟩, hlost⟩ := h.movesUp
  -- the first place is empty now, so the log is opened as a new file
  have hleads : r₄.base.disk.Leads s.workingDir path home name :=
    hfiled.leads_slot h.shelf (Nat.zero_le _)
  have hopen := Disk.openFile_of_none hleads ((hfiled.slots 0 (Nat.zero_le _)).trans hfirst)
  have hrenewed : Renewed r₁.base.disk home name (kept own) id _ :=
    hfiled.reopen h.shelf.home_lt Nat.le_succ (fun _ _ => id) hfirst hrow
  have hcount : r₄.base.disk.contents.size = r₁.base.disk.contents.size := by
    rw [hfiled.contents]
  have hempty : Disk.sizeOf (r₄.base.disk.addFile home name .empty).1
      ⟨path, some r₄.base.disk.contents.size, false⟩ = 0 := by
    change (Disk.bytesOf _ r₄.base.disk.contents.size).size = 0
    rw [Disk.bytesOf_addFile, if_pos rfl]
    rfl
  rw [← hhere] at hleads hopen
  obtain ⟨up, hparent, hcreate⟩ := hleads.createDirs
  obtain ⟨r', hopened, hleaves⟩ := openSink_of_openFile hsteady hparent hcreate hopen isFallback
    (oldest { own with path })
  rw [hempty, hcount] at hopened
  have hmoved : shift (m := StateM (Watched Machine)) path (kept own - 1) r₂ = ((), r₃) := hshifted
  refine ⟨r', ?_, hleaves.disk ▸ hrenewed, hleaves.steady, hleaves.here.trans hhere,
    hleaves.removed ▸ hlost⟩
  rw [rotate, StateM.bind_apply, hflushed]
  change (close (m := StateM (Watched Machine)) (.file ⟨file, .empty⟩ path size isFallback) >>= _)
    r₁ = _
  rw [StateM.bind_apply, close_of_empty]
  change (Host.remove (m := StateM (Watched Machine)) (oldest { own with path }) >>= _) r₁ = _
  rw [StateM.bind_apply, hremoved]
  change (shift (m := StateM (Watched Machine)) path (kept own - 1) >>= _) r₂ = _
  rw [StateM.bind_apply, hmoved]
  change (Host.rename (m := StateM (Watched Machine)) path (rotatedName path 1) >>= _) r₃ = _
  rw [StateM.bind_apply, hrenamed]
  change (openSink (m := StateM (Watched Machine)) path isFallback >>= _) r₄ = _
  rw [StateM.bind_apply, hopened]
  rfl

/-- After a rotation the books are in order: what went is on record. -/
theorem InOrder.rotated {w : WatchedWriter Machine} (h : InOrder s settings home name text w r) :
    ∃ w' r', rotate (m := StateM (Watched Machine)) w r = (w', r') ∧
      InOrder s settings home name text w' r' := by
  obtain ⟨size, hon⟩ := h.on
  obtain ⟨file, r₁, hflushed, hfile⟩ := hon.flushes takes_onFile
  obtain ⟨r', hrotated, hrenewed, hsteady, hhere, hlost⟩ := OnFile.rotates hflushed hfile
  have hfresh := OnFile.of_renewed hfile.shelf hfile.untouched hrenewed hsteady hhere rfl
  have hstored := hrenewed.stored_of_raised hfile.shelf (kept_pos settings)
  rw [slotName_kept] at hstored
  refine ⟨_, r', hrotated, _, 0, _, rfl, _, hfresh, ?_⟩
  have hwhole : joined (removed (oldest settings) r'.deeds) =
      joined (removed (oldest settings) r₁.deeds) ++
        (r₁.base.disk.content s.workingDir (oldest settings)).getD .empty := hlost
  rw [hwhole, ByteArray.append_empty, ByteArray.append_assoc, ← hstored]
  exact hfile.taken

/-! ## Lines -/

theorem InOrder.rotatedIfDue {w : WatchedWriter Machine}
    (h : InOrder s settings home name text w r) (more : Nat) :
    ∃ w' r', rotateIfDue (m := StateM (Watched Machine)) w more r = (w', r') ∧
      InOrder s settings home name text w' r' := by
  obtain ⟨b, size, lastSync, rfl, haccounts⟩ := h
  unfold rotateIfDue
  dsimp only
  split_ifs with hdue
  · exact InOrder.rotated ⟨b, size, lastSync, rfl, haccounts⟩
  · exact ⟨_, r, rfl, b, size, lastSync, rfl, haccounts⟩

theorem InOrder.served {w : WatchedWriter Machine} (h : InOrder s settings home name text w r)
    (call : Call) :
    ∃ w' r', serve (m := StateM (Watched Machine)) w call r = (w', r') ∧
      InOrder s settings home name (text ++ call.line) w' r' := by
  cases call with
  | write entry =>
      obtain ⟨w₁, r₁, hrotated, horder⟩ := h.rotatedIfDue (entry.line ++ "\n").utf8ByteSize
      obtain ⟨size, hon⟩ := horder.on
      obtain ⟨w', r', hdone, hon'⟩ := hon.attempts hrotated takes_onFile
      exact ⟨w', r', writeEntry_of_attempt hdone, inOrder_of_on hon'⟩
  | flush =>
      obtain ⟨size, hon⟩ := h.on
      obtain ⟨file, r', hflushed, hfile⟩ := hon.flushes takes_onFile
      rw [Call.line, ByteArray.append_empty]
      exact ⟨_, r', hflushed, _, size, _, rfl, held_empty hfile⟩
  | sync =>
      obtain ⟨size, hon⟩ := h.on
      obtain ⟨file, lastSync, r', hsynced, hfile⟩ := hon.syncs takes_onFile
      rw [Call.line, ByteArray.append_empty]
      exact ⟨_, r', hsynced, _, size, lastSync, rfl, held_empty hfile⟩
  | recover =>
      rw [Call.line, ByteArray.append_empty]
      obtain ⟨b, size, lastSync, rfl, haccounts⟩ := h
      exact ⟨_, r, rfl, b, size, lastSync, rfl, haccounts⟩

theorem InOrder.servedAll {w : WatchedWriter Machine} (h : InOrder s settings home name text w r)
    (calls : List Call) :
    ∃ w' r', calls.foldlM (m := StateM (Watched Machine)) serve w r = (w', r') ∧
      InOrder s settings home name (text ++ joined (calls.map Call.line)) w' r' := by
  induction calls generalizing w r text with
  | nil => exact ⟨w, r, rfl, by rwa [List.map_nil, joined, List.foldr_nil, ByteArray.append_empty]⟩
  | cons call calls ih =>
      obtain ⟨w₁, r₁, hserved, horder₁⟩ := h.served call
      obtain ⟨w', r', hrest, horder'⟩ := ih horder₁
      refine ⟨w', r', ?_, ?_⟩
      · rw [List.foldlM_cons, StateM.bind_apply, hserved]
        exact hrest
      · rw [ByteArray.append_assoc] at horder'
        exact horder'

/-! ## Logs -/

/-- The bytes that wait in a writer. -/
def pending {F : Type} (w : LogWriter F) : ByteArray :=
  match w.sink with
  | .file b _ _ _ => b.pending
  | _ => .empty

/-- A writer is on the first file of its log. -/
structure Normal (settings : LogSettings) (home : Nat) (name : String) (w : LogWriter OpenFile)
    (s : Machine) : Prop where
  own : w.settings = settings
  steady : s.Steady
  shelf : Shelf s.disk s.workingDir settings.path home name (kept settings)
  sink : ∃ (b : BufferedFile OpenFile) (size : Nat), w.sink = .file b settings.path size false ∧
    b.file.isFull = false ∧
    ∃ number, s.disk.find? home name = some (.file number) ∧ b.file.number = some number

theorem Normal.state_eq {w : LogWriter OpenFile} (h : Normal settings home name w s) :
    w.state = "normal" := by
  obtain ⟨b, size, hsink, -⟩ := h.sink
  rw [state, hsink]

theorem Normal.inOrder {w : LogWriter OpenFile} (h : Normal settings home name w s) :
    InOrder s settings home name
      (stored s.disk s.workingDir settings.path (kept settings) ++ w.pending)
      (w.map (WatchedFile.mk settings.path)) (.opening s) := by
  obtain ⟨settings', sink, lastSync⟩ := w
  obtain ⟨b, size, hsink, hroom, hlive⟩ := h.sink
  obtain rfl : settings' = settings := h.own
  obtain rfl : sink = .file b _ size false := hsink
  refine ⟨b.map (WatchedFile.mk settings'.path), size, lastSync, rfl, _,
    ⟨h.steady, rfl, h.shelf, .refl _ _ _ _, hlive, hroom, ?_⟩, rfl⟩
  exact ByteArray.empty_append

theorem InOrder.normal {w : WatchedWriter Machine} (h : InOrder s settings home name text w r) :
    Normal settings home name (w.map Watched.plainFile) r.base ∧
      joined (removed (oldest settings) r.deeds) ++
          stored r.base.disk s.workingDir settings.path (kept settings) ++
          (w.map Watched.plainFile).pending = text ∧
      Untouched s.disk r.base.disk home name (kept settings) := by
  obtain ⟨b, size, lastSync, rfl, taken, hfile, rfl⟩ := h
  refine ⟨⟨rfl, hfile.steady, hfile.here ▸ hfile.shelf, b.map WatchedFile.file, size, rfl,
    hfile.room, hfile.live⟩, ?_, hfile.untouched⟩
  rw [hfile.taken]
  rfl

/-- To forget the paths of files again. -/
theorem map_plainFile_map (w : LogWriter OpenFile) (path : String) :
    (w.map (WatchedFile.mk path)).map (Watched.plainFile (σ := Machine)) = w := by
  obtain ⟨settings, sink, lastSync⟩ := w
  cases sink <;> rfl

/-- A writer starts on the first file of its log. -/
theorem start_inOrder (hsteady : s.Steady)
    (h : Prepared s.disk s.workingDir settings.path home name (kept settings) made) :
    ∃ w r, start (m := StateM (Watched Machine)) settings (.opening s) = (w, r) ∧
      InOrder { s with disk := made } settings home name
        (stored made s.workingDir settings.path (kept settings)) w r ∧
      removed (oldest settings) r.deeds = [] := by
  have hstart {file : OpenFile} {size : Nat} {r : Watched Machine}
      (hopened : openSink (m := StateM (Watched Machine)) settings.path false (.opening s) =
        (some (.file ⟨⟨settings.path, file⟩, .empty⟩ settings.path size false), r)) :
      start (m := StateM (Watched Machine)) settings (.opening s) =
        (⟨settings, .file ⟨⟨settings.path, file⟩, .empty⟩ settings.path size false, r.base.now⟩,
          r) := by
    unfold start
    rw [StateM.bind_apply, hopened]
    rfl
  obtain ⟨number, r, hopened, hleaves, hcases⟩ :=
    openSink_of_prepared (r := .opening s) hsteady h false (oldest settings)
  have hhere : r.base.workingDir = s.workingDir := hleaves.here
  rcases hcases with ⟨hsame, hlive⟩ | ⟨rfl, hfree, hrenewed⟩
  · have hfile : OnFile { s with disk := made } settings home name
        (stored made s.workingDir settings.path (kept settings))
        ⟨settings.path, settings.path, some number, false⟩ r := by
      refine ⟨hleaves.steady, hhere, hsame ▸ h.shelf, ?_, ⟨number, hsame ▸ hlive, rfl⟩, rfl, ?_⟩
      · rw [hsame]
        exact .refl _ _ _ _
      · rw [hleaves.removed, hsame]
        exact ByteArray.empty_append
    exact ⟨_, r, hstart hopened, ⟨_, _, _, rfl, held_empty hfile⟩, hleaves.removed⟩
  · have hfresh : OnFile { s with disk := made } settings home name _ _ r :=
      OnFile.of_renewed h.shelf (.refl _ _ _ _) hrenewed hleaves.steady hhere rfl
    refine ⟨_, r, hstart hopened, ⟨_, _, _, rfl, _, hfresh, ?_⟩, hleaves.removed⟩
    rw [ByteArray.append_empty, hleaves.removed]
    change joined [] ++ stored r.base.disk s.workingDir settings.path (kept settings) = _
    rw [hrenewed.stored_eq h.shelf hfree]
    exact ByteArray.empty_append

/-- Through all rotations the lines of a log stay in order, and lost are only the files that had
the highest number when they were removed.  To open a log changes nothing but that its directories
and its first file are there. -/
theorem lines_through_rotations (settings : LogSettings) (home : Nat) (name : String) :
    (∀ (s : Machine) (made : Disk), s.Steady →
      Prepared s.disk s.workingDir settings.path home name (kept settings) made →
      let begun := start (m := StateM Machine) settings s
      Normal settings home name begun.1 begun.2 ∧
      stored begun.2.disk s.workingDir settings.path (kept settings) ++ begun.1.pending =
        stored made s.workingDir settings.path (kept settings) ∧
      Untouched made begun.2.disk home name (kept settings) ∧
      s.disk.Grown made ∧
      (made = s.disk ∨ ∀ i, s.disk.content s.workingDir (slotName settings.path i) = none)) ∧
    ∀ (s : Machine) (w : LogWriter OpenFile), Normal settings home name w s →
      ∀ calls : List Call,
      let outcome := calls.foldlM (m := StateM (Watched Machine)) serve
        (w.map (WatchedFile.mk settings.path)) (.opening s)
      let w' := outcome.1.map Watched.plainFile
      let disk := outcome.2.base.disk
      calls.foldlM (m := StateM Machine) serve w s = (w', outcome.2.base) ∧
      Normal settings home name w' outcome.2.base ∧ w'.state = "normal" ∧
      joined (removed (oldest settings) outcome.2.deeds) ++
          stored disk s.workingDir settings.path (kept settings) ++ w'.pending =
        stored s.disk s.workingDir settings.path (kept settings) ++ w.pending ++
          joined (calls.map Call.line) ∧
      Untouched s.disk disk home name (kept settings) := by
  constructor
  · intro s made hsteady hprepared
    obtain ⟨w, r, hstarted, horder, hnothing⟩ := start_inOrder hsteady hprepared
    have hbegun := reflects_start Watched.overlay settings (.opening s)
    rw [hstarted] at hbegun
    obtain ⟨hnormal, htext, huntouched⟩ := horder.normal
    rw [hnothing, joined, List.foldr_nil, ByteArray.empty_append] at htext
    change start (m := StateM Machine) settings s = _ at hbegun
    rw [hbegun]
    exact ⟨hnormal, htext, huntouched, hprepared.grown, hprepared.before⟩
  · intro s w hw calls
    obtain ⟨w', r, hserved, horder⟩ := hw.inOrder.servedAll calls
    have hsame := reflects_calls (Watched.overlay (σ := Machine)) calls
      (w.map (WatchedFile.mk settings.path)) (.opening s)
    rw [map_plainFile_map] at hsame
    rw [hserved] at hsame ⊢
    obtain ⟨hnormal, htext, huntouched⟩ := horder.normal
    exact ⟨hsame, hnormal, hnormal.state_eq, htext, huntouched⟩

/-- A log of which one file is kept aside, and which takes no line into a file that is there. -/
def shortLog : LogSettings := { LogSettings.at "a.jsonl" with maxSize := 0, maxRotated := 1 }

/-- A machine on which there is a first file of a log. -/
def oneFileMachine : Machine :=
  { Machine.blank with disk := .ofFile "a.jsonl" "old\n".toUTF8 }

theorem shelf_oneFileMachine :
    Shelf oneFileMachine.disk oneFileMachine.workingDir shortLog.path Disk.root "a.jsonl"
      (kept shortLog) := by
  have hfind (directory : Nat) (other : String) : oneFileMachine.disk.find? directory other =
      if Disk.root = directory ∧ "a.jsonl" = other then some (.file 0) else none :=
    Disk.find?_ofFile _ _ directory other
  refine ⟨Disk.sound_ofFile _ _, Nat.zero_lt_one, ?_, by decide +kernel, ?_, ?_⟩
  · have hplace : oneFileMachine.disk.locate .name Disk.root "a.jsonl" =
        .ok (.name Disk.root "a.jsonl" (some (.file 0)) false) := by
      with_unfolding_all rfl
    exact hplace
  · intro i _
    rw [hfind]
    split_ifs
    · exact .inr ⟨0, rfl⟩
    · exact .inl rfl
  · intro i _ number hfile directory other hother
    rw [hfind] at hfile hother
    split_ifs at hfile hother with hlive hsame
    exact ⟨hsame.1.symm, hsame.2.symm.trans hlive.2⟩

/-- A log in a directory that is missing. -/
def remoteLog : LogSettings := { shortLog with path := "logs/a.jsonl" }

theorem prepared_remoteLog :
    Prepared Machine.blank.disk Machine.blank.workingDir remoteLog.path 1 "a.jsonl"
      (kept remoteLog) (Machine.blank.disk.addDirectory Disk.root "logs") := by
  have hfind (other : String) :
      (Machine.blank.disk.addDirectory Disk.root "logs").find? 1 other = none := by
    rw [Disk.find?_addDirectory Nat.zero_lt_one, if_neg fun h => by cases h.1]
    rfl
  have hmade : Machine.blank.disk.createDirs Machine.blank.workingDir "logs" =
      (.ok (), Machine.blank.disk.addDirectory Disk.root "logs") := by
    with_unfolding_all rfl
  have hparent : Path.parent? remoteLog.path = some "logs" := by decide +kernel
  refine ⟨Disk.sound_empty, Nat.zero_lt_one, ⟨"logs", hparent, hmade⟩, ?_⟩
  refine ⟨Disk.sound_empty.addDirectory Nat.zero_lt_one "logs", by decide +kernel, ?_,
    by decide +kernel, ?_, ?_⟩
  · have hplace : (Machine.blank.disk.addDirectory Disk.root "logs").locate .name Disk.root
        "logs/a.jsonl" = .ok (.name 1 "a.jsonl" none false) := by
      with_unfolding_all rfl
    rw [Disk.Leads, hfind]
    exact hplace
  · exact fun i _ => .inl (hfind _)
  · intro i _ number hfile
    rw [hfind] at hfile
    cases hfile

/-- Two lines through a log that is there, and the opening of one in a directory that is missing. -/
theorem lines_through_rotations_on_oneFileMachine :
    let calls : List Call := [.write someEntry, .write someEntry]
    let begun := start (m := StateM Machine) shortLog oneFileMachine
    let outcome := calls.foldlM (m := StateM (Watched Machine)) serve
      (begun.1.map (WatchedFile.mk shortLog.path)) (.opening begun.2)
    oneFileMachine.Steady ∧
    Shelf oneFileMachine.disk oneFileMachine.workingDir shortLog.path Disk.root "a.jsonl"
      (kept shortLog) ∧
    Normal shortLog Disk.root "a.jsonl" begun.1 begun.2 ∧
    removed (oldest shortLog) outcome.2.deeds = ["old\n".toUTF8] ∧
    joined (removed (oldest shortLog) outcome.2.deeds) ++
        stored outcome.2.base.disk begun.2.workingDir shortLog.path (kept shortLog) ++
        (outcome.1.map Watched.plainFile).pending =
      stored begun.2.disk begun.2.workingDir shortLog.path (kept shortLog) ++ begun.1.pending ++
        joined (calls.map Call.line) ∧
    let opened := start (m := StateM Machine) remoteLog Machine.blank
    Prepared Machine.blank.disk Machine.blank.workingDir remoteLog.path 1 "a.jsonl"
      (kept remoteLog) (Machine.blank.disk.addDirectory Disk.root "logs") ∧
    Normal remoteLog 1 "a.jsonl" opened.1 opened.2 := by
  intro calls begun outcome
  have hsteady : oneFileMachine.Steady := ⟨rfl, fun _ _ => rfl⟩
  obtain ⟨hopens, hcalls⟩ := lines_through_rotations shortLog Disk.root "a.jsonl"
  obtain ⟨hnormal, -⟩ := hopens oneFileMachine _ hsteady shelf_oneFileMachine.prepared
  obtain ⟨-, -, -, htext, -⟩ := hcalls begun.2 begun.1 hnormal calls
  obtain ⟨hremote, -⟩ := lines_through_rotations remoteLog 1 "a.jsonl"
  obtain ⟨hopened, -⟩ := hremote Machine.blank _ ⟨rfl, fun _ _ => rfl⟩ prepared_remoteLog
  exact ⟨hsteady, shelf_oneFileMachine, hnormal, by decide +kernel, htext,
    prepared_remoteLog, hopened⟩

end LogWriter

end Backlog
