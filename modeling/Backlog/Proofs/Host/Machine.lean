import Backlog.Host.Machine
import Backlog.Proofs.Service.Acts

/-!
# Machines on which operations work

An operation on files does what it does on the disk, unless the machine lets it go wrong.  This
file says so for each of them, under the condition that nothing goes wrong with it (`Works`).
A machine on which nothing ever goes wrong stays one (`Steady`).
-/

namespace Backlog

namespace Machine

variable {s : Machine} {path : String}

/-- Nothing goes wrong with an operation but what the disk itself refuses. -/
def Works (op : FileOperation) (s : Machine) : Prop :=
  s.isEnded = false ∧ s.upsets s.steps op = none

instance (op : FileOperation) (s : Machine) : Decidable (Works op s) :=
  inferInstanceAs (Decidable (_ ∧ _))

theorem upset_of_works {op : FileOperation} (h : Works op s) :
    upset op s = (none, { s with steps := s.steps + 1 }) := by
  obtain ⟨hgoes, hnone⟩ := h
  change (if s.isEnded then _ else _ : StateM Machine (Option Upset)) s = _
  rw [hgoes]
  change (s.upsets s.steps op,
    { s with steps := s.steps + 1, isEnded := (s.upsets s.steps op).any Upset.isEnd }) = _
  rw [hnone]
  rfl

theorem changeDisk_of_works {α : Type} {op : FileOperation} (h : Works op s)
    (change : Disk → Except IoFault (α × Disk)) :
    changeDisk op change s =
      match change s.disk with
      | .error fault => (.error fault, { s with steps := s.steps + 1 })
      | .ok (a, disk) => (.ok a, { s with disk, steps := s.steps + 1 }) := by
  rw [changeDisk, StateM.bind_apply, upset_of_works h]
  change (match change s.disk with
    | .error fault => return .error fault
    | .ok (a, disk) => do
      set { s with steps := s.steps + 1, disk }
      return .ok a : StateM Machine (Except IoFault α)) _ = _
  cases change s.disk <;> rfl

/-! ## Opening files -/

theorem openAppend_apply (path : String) (s : Machine) :
    Host.openAppend (m := StateM Machine) path s =
      changeDisk (.openAppend path) (fun d => do
        let (file, d) ← d.openFile s.workingDir path
        return ((file, d.sizeOf file), d)) s := rfl

theorem openFresh_apply (path : String) (s : Machine) :
    Host.openFresh (m := StateM Machine) path s =
      changeDisk (.openFresh path) (fun d => do
        let (file, d) ← d.openFile s.workingDir path
        return (file, d.truncate file)) s := rfl

/-! ## Operations that may go wrong -/

/-- What can go wrong with an operation is decided before it does anything. -/
theorem upset_frame {op : FileOperation} {u : Option Upset} {s' : Machine}
    (h : upset op s = (u, s')) : s'.disk = s.disk ∧ s'.workingDir = s.workingDir := by
  unfold upset at h
  obtain ⟨s₁, s₂, hget, h⟩ := StateM.exists_of_bind_apply h
  cases hget
  cases hended : s.isEnded with
  | true =>
      rw [hended] at h
      cases h
      exact ⟨rfl, rfl⟩
  | false =>
      rw [hended] at h
      cases h
      exact ⟨rfl, rfl⟩

/-- An operation that changes the disk does what it does there, or nothing. -/
theorem changeDisk_cases {α : Type} {op : FileOperation}
    {change : Disk → Except IoFault (α × Disk)} {answer : Except IoFault α} {s' : Machine}
    (h : changeDisk op change s = (answer, s')) :
    s'.workingDir = s.workingDir ∧
      ((∃ fault, answer = .error fault ∧ s'.disk = s.disk) ∨
        ∃ a, answer = .ok a ∧ change s.disk = .ok (a, s'.disk)) := by
  obtain ⟨u, s₁, hupset, h⟩ := StateM.exists_of_bind_apply h
  obtain ⟨hdisk, hhere⟩ := upset_frame hupset
  cases u with
  | some u =>
      cases h
      exact ⟨hhere, .inl ⟨_, rfl, hdisk⟩⟩
  | none =>
      change (match change s₁.disk with
        | .error fault => pure (.error fault)
        | .ok (a, disk) => fun s => (.ok a, { s₁ with disk })
          : StateM Machine (Except IoFault α)) s₁ = _ at h
      rw [hdisk] at h
      cases hchange : change s.disk with
      | error fault =>
          rw [hchange] at h
          cases h
          exact ⟨hhere, .inl ⟨fault, rfl, hdisk⟩⟩
      | ok changed =>
          obtain ⟨a, disk⟩ := changed
          rw [hchange] at h
          cases h
          exact ⟨hhere, .inr ⟨a, rfl, rfl⟩⟩

theorem createDirs_cases {answer : Except IoFault Unit} {s' : Machine}
    (h : Host.createDirs (m := StateM Machine) path s = (answer, s')) :
    s'.workingDir = s.workingDir ∧
      ((∃ fault, answer = .error fault ∧ s'.disk = s.disk) ∨
        (answer, s'.disk) = s.disk.createDirs s.workingDir path) := by
  obtain ⟨u, s₁, hupset, h⟩ := StateM.exists_of_bind_apply h
  obtain ⟨hdisk, hhere⟩ := upset_frame hupset
  cases u with
  | some u =>
      cases h
      exact ⟨hhere, .inl ⟨_, rfl, hdisk⟩⟩
  | none =>
      cases h
      rw [← hdisk, ← hhere]
      exact ⟨rfl, .inr rfl⟩

/-- So does an operation that has nothing else to say. -/
theorem alterDisk_cases {op : FileOperation} {alter : Disk → Except IoFault Disk}
    {answer : Except IoFault Unit} {s' : Machine}
    (h : changeDisk op (fun d => do
      let d ← alter d
      return ((), d)) s = (answer, s')) :
    s'.workingDir = s.workingDir ∧
      ((∃ fault, answer = .error fault ∧ s'.disk = s.disk) ∨
        answer = .ok () ∧ alter s.disk = .ok s'.disk) := by
  obtain ⟨hhere, hfailed | ⟨⟨⟩, rfl, haltered⟩⟩ := changeDisk_cases h
  · exact ⟨hhere, .inl hfailed⟩
  · cases halter : alter s.disk with
    | error fault =>
        rw [halter] at haltered
        cases haltered
    | ok disk =>
        rw [halter] at haltered
        exact ⟨hhere, .inr ⟨rfl, congrArg Except.ok (Prod.mk.inj (Except.ok.inj haltered)).2⟩⟩

theorem rename_cases {source target : String} {answer : Except IoFault Unit} {s' : Machine}
    (h : Host.rename (m := StateM Machine) source target s = (answer, s')) :
    s'.workingDir = s.workingDir ∧
      ((∃ fault, answer = .error fault ∧ s'.disk = s.disk) ∨
        answer = .ok () ∧ s.disk.rename s.workingDir source target = .ok s'.disk) := by
  change changeDisk (.rename source target) (fun d => do
    let d ← d.rename s.workingDir source target
    return ((), d)) s = _ at h
  exact alterDisk_cases h

theorem remove_cases {answer : Except IoFault Unit} {s' : Machine}
    (h : Host.remove (m := StateM Machine) path s = (answer, s')) :
    s'.workingDir = s.workingDir ∧
      ((∃ fault, answer = .error fault ∧ s'.disk = s.disk) ∨
        answer = .ok () ∧ s.disk.remove s.workingDir path = .ok s'.disk) := by
  change changeDisk (.remove path) (fun d => do
    let d ← d.remove s.workingDir path
    return ((), d)) s = _ at h
  exact alterDisk_cases h

/-- Some part of the bytes is written, and all of them if nothing goes wrong. -/
theorem write_cases {file : OpenFile} {bytes : ByteArray} {written : Written} {s' : Machine}
    (h : Host.write (m := StateM Machine) file bytes s = (written, s')) :
    s'.workingDir = s.workingDir ∧ ∃ part, s'.disk = (s.disk.write file part).2 ∧
      (written.fault = none → part = bytes ∧ (s.disk.write file part).1.fault = none) := by
  change writeFile file bytes s = _ at h
  unfold writeFile at h
  obtain ⟨u, s₁, hupset, h⟩ := StateM.exists_of_bind_apply h
  obtain ⟨hdisk, hhere⟩ := upset_frame hupset
  rw [← hdisk, ← hhere]
  cases u with
  | some u =>
      have hpart : (⟨(s₁.disk.write file (bytes.extract 0 u.written)).1.count,
          some ((s₁.disk.write file (bytes.extract 0 u.written)).1.fault.getD u.fault)⟩,
          { s₁ with disk := (s₁.disk.write file (bytes.extract 0 u.written)).2 }) =
            (written, s') := h
      obtain ⟨rfl, rfl⟩ := Prod.mk.inj hpart
      exact ⟨rfl, _, rfl, nofun⟩
  | none =>
      have hwhole : ((s₁.disk.write file bytes).1,
          { s₁ with disk := (s₁.disk.write file bytes).2 }) = (written, s') := h
      obtain ⟨rfl, rfl⟩ := Prod.mk.inj hwhole
      exact ⟨rfl, bytes, rfl, fun hdone => ⟨rfl, hdone⟩⟩

theorem remove_of_works (h : Works (.remove path) s) :
    Host.remove (m := StateM Machine) path s =
      match s.disk.remove s.workingDir path with
      | .error fault => (.error fault, { s with steps := s.steps + 1 })
      | .ok disk => (.ok (), { s with disk, steps := s.steps + 1 }) := by
  change changeDisk (.remove path) (fun d => do
    let d ← d.remove s.workingDir path
    return ((), d)) s = _
  rw [changeDisk_of_works h]
  cases s.disk.remove s.workingDir path <;> rfl

/-! ## Steady machines -/

/-- The machine after an operation that left this disk. -/
def stepTo (s : Machine) (disk : Disk) : Machine := { s with disk, steps := s.steps + 1 }

@[simp] theorem disk_stepTo (s : Machine) (disk : Disk) : (s.stepTo disk).disk = disk := rfl

@[simp] theorem workingDir_stepTo (s : Machine) (disk : Disk) :
    (s.stepTo disk).workingDir = s.workingDir := rfl

/-- Nothing ever goes wrong. -/
structure Steady (s : Machine) : Prop where
  goes : s.isEnded = false
  calm : ∀ step operation, s.upsets step operation = none

theorem Steady.works (h : Steady s) (operation : FileOperation) : Works operation s :=
  ⟨h.goes, h.calm _ _⟩

theorem Steady.stepTo (h : Steady s) (disk : Disk) : Steady (s.stepTo disk) := ⟨h.goes, h.calm⟩

theorem Steady.at_time (h : Steady s) (now : Instant) : Steady { s with now } := ⟨h.goes, h.calm⟩

theorem Steady.createDirs (h : Steady s) (path : String) :
    Host.createDirs (m := StateM Machine) path s =
      ((s.disk.createDirs s.workingDir path).1,
        s.stepTo (s.disk.createDirs s.workingDir path).2) := by
  change (upset (.createDirs path) >>= _ : StateM Machine (Except IoFault Unit)) s = _
  rw [StateM.bind_apply, upset_of_works (h.works _)]
  rfl

theorem Steady.openAppend (h : Steady s) (path : String) :
    Host.openAppend (m := StateM Machine) path s =
      match s.disk.openFile s.workingDir path with
      | .error fault => (.error fault, s.stepTo s.disk)
      | .ok (file, disk) => (.ok (file, disk.sizeOf file), s.stepTo disk) := by
  rw [openAppend_apply, changeDisk_of_works (h.works _)]
  cases s.disk.openFile s.workingDir path <;> rfl

theorem Steady.write (h : Steady s) (file : OpenFile) (bytes : ByteArray) :
    Host.write (m := StateM Machine) file bytes s =
      ((s.disk.write file bytes).1, s.stepTo (s.disk.write file bytes).2) := by
  change writeFile file bytes s = _
  rw [writeFile, StateM.bind_apply, upset_of_works (h.works _)]
  rfl

/-- A file that is no device takes all bytes. -/
theorem Steady.write_file (h : Steady s) {file : OpenFile} {number : Nat}
    (hnumber : file.number = some number) (hroom : file.isFull = false) (bytes : ByteArray) :
    Host.write (m := StateM Machine) file bytes s =
      (⟨bytes.size, none⟩, s.stepTo (s.disk.append number bytes)) := by
  rw [h.write, Disk.write, hroom, hnumber]
  rfl

theorem Steady.sync (h : Steady s) (file : OpenFile) :
    ∃ outcome, Host.sync (m := StateM Machine) file s = (outcome, s.stepTo s.disk) := by
  refine ⟨if file.number.isSome then .ok () else .error .invalidArgument, ?_⟩
  change changeDisk (.sync file.path) (fun d =>
    if file.number.isSome then .ok ((), d) else .error .invalidArgument) s = _
  rw [changeDisk_of_works (h.works _)]
  cases file.number.isSome <;> rfl

theorem Steady.rename (h : Steady s) (source target : String) :
    Host.rename (m := StateM Machine) source target s =
      match s.disk.rename s.workingDir source target with
      | .error fault => (.error fault, s.stepTo s.disk)
      | .ok disk => (.ok (), s.stepTo disk) := by
  change changeDisk (.rename source target) (fun d => do
    let d ← d.rename s.workingDir source target
    return ((), d)) s = _
  rw [changeDisk_of_works (h.works _)]
  cases s.disk.rename s.workingDir source target <;> rfl

theorem Steady.remove (h : Steady s) (path : String) :
    Host.remove (m := StateM Machine) path s =
      match s.disk.remove s.workingDir path with
      | .error fault => (.error fault, s.stepTo s.disk)
      | .ok disk => (.ok (), s.stepTo disk) := by
  rw [remove_of_works (h.works _)]
  cases s.disk.remove s.workingDir path <;> rfl

theorem Steady.printError (h : Steady s) (text : String) :
    ∃ s', Host.printError (m := StateM Machine) text s = (true, s') ∧ s'.Steady ∧
      s'.workingDir = s.workingDir ∧ s'.disk = s.disk := by
  refine ⟨{ s with errors := s.errors ++ text, steps := s.steps + 1 }, ?_,
    ⟨h.goes, h.calm⟩, rfl, rfl⟩
  change (upset .printError >>= _ : StateM Machine Bool) s = _
  rw [StateM.bind_apply, upset_of_works (h.works _)]
  rfl

theorem Steady.warn (h : Steady s) (line : String) :
    ∃ s', Host.warn (m := StateM Machine) line s = ((), s') ∧ s'.Steady ∧
      s'.workingDir = s.workingDir ∧ s'.disk = s.disk := by
  obtain ⟨s', hprinted, hsteady⟩ := h.printError (line ++ "\n")
  refine ⟨s', ?_, hsteady⟩
  rw [Host.warn, StateM.bind_apply, hprinted]
  rfl

end Machine

end Backlog
