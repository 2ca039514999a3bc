import Backlog.Proofs.Host.Directories

/-!
# Operations on files

What the operations of a disk do, once it is known which name in which directory a path leads to
(`Leads`).  This does not change as long as only files come and go (`Leads.sameWays`), it is the
same for all numbers that a path may end in (`Leads.rotated`), and it says that the directories
for the file are there (`Leads.createDirs`).
-/

namespace Backlog

namespace Disk

/-- A path leads to a name in a directory, and no slash comes after it. -/
def Leads (d : Disk) (here : Nat) (path : String) (home : Nat) (name : String) : Prop :=
  d.locate .name here path = .ok (.name home name (d.find? home name) false)

variable {d d' : Disk} {here home number : Nat} {path name source target : String}

theorem Leads.sameWays (h : Leads d here path home name) (hways : SameWays d d') :
    Leads d' here path home name := by
  have hlegal := legal_of_locate h
  have hwalk : Agrees d' (d.walk .name maxLinks (start here path) (Path.endsInSlash path)
      (Path.steps path)) (d'.walk .name maxLinks (start here path) (Path.endsInSlash path)
      (Path.steps path)) := walk_sameWays hways
  unfold Leads at h ⊢
  rw [locate_of_legal hlegal, settle_name] at h ⊢
  rw [h] at hwalk
  exact hwalk

/-- A file that was put aside is in the same directory. -/
theorem Leads.rotated (h : Leads d here path home name) {number : Nat}
    (hpath : (LogWriter.rotatedName path number).utf8ByteSize ≤ maxPath)
    (hname : (LogWriter.rotatedName name number).utf8ByteSize ≤ maxName) :
    Leads d here (LogWriter.rotatedName path number) home (LogWriter.rotatedName name number) := by
  have hlegal := legal_of_locate h
  obtain ⟨front, links, hsteps, -, -, -, hway, hslash, -⟩ := way_of_locate h
  obtain ⟨hdot, hdots⟩ := Path.rotatedName_ne_dots name number
  have hrotated : Legal (LogWriter.rotatedName path number) := by
    refine ⟨?_, ?_, hpath⟩
    · have hnul : '\x00' ∉ path.toList := by simpa using hlegal.nul
      have hending := Path.nul_notMem_ending number
      rw [← Bool.not_eq_true, List.contains_iff_mem, Path.toList_rotatedName, List.mem_append,
        not_or]
      exact ⟨hnul, hending⟩
    · intro hempty
      have htext := congrArg String.toList hempty
      rw [Path.toList_rotatedName] at htext
      simp at htext
  have hstart : start here (LogWriter.rotatedName path number) = start here path := by
    rw [start, start, Path.isAbsolute_rotatedName hlegal.nonempty]
  have hplace := locate_of_way hrotated (Path.steps_rotatedName hsteps hslash.symm number) hdot
    hdots hname (hstart ▸ hway)
  rw [Path.endsInSlash_rotatedName] at hplace
  exact hplace

/-- The names before the last one are a way to the directory, also for a file that was put aside. -/
theorem Leads.names (h : Leads d here path home name) :
    ∃ front, Path.names path = front ++ [name] ∧
      (∃ links, d.way maxLinks (start here path) front = some (home, links)) ∧
      ∀ number, Path.names (LogWriter.rotatedName path number) =
        front ++ [LogWriter.rotatedName name number] := by
  obtain ⟨front, links, hsteps, hdot, -, -, hway, hslash, -⟩ := way_of_locate h
  have hlast {path name : String} (hsteps : Path.steps path = front ++ [name])
      (hdot : name ≠ ".") :
      Path.names path = front.filter (fun step => step ≠ ".") ++ [name] := by
    rw [Path.names_eq_filter_steps, hsteps, List.filter_append]
    simp [hdot]
  refine ⟨_, hlast hsteps hdot, ⟨links, way_filter.trans hway⟩, fun number => ?_⟩
  exact hlast (Path.steps_rotatedName hsteps hslash.symm number)
    (Path.rotatedName_ne_dots name number).1

/-- The directories for a file are there if its path leads anywhere. -/
theorem Leads.createDirs (h : Leads d here path home name) :
    ∃ up, Path.parent? path = some up ∧ d.createDirs here up = (.ok (), d) := by
  obtain ⟨front, hnames, ⟨links, hway⟩, -⟩ := h.names
  obtain ⟨up, hparent, hup, hpart, -, -⟩ := Path.parent_names hnames
  refine ⟨up, hparent, ?_⟩
  by_cases hempty : up = ""
  · rw [hempty]
    exact createDirs_empty d here
  · refine createDirs_of_isDirectory ?_
    rw [isDirectory_parent_iff (legal_of_locate h) hpart hempty hup]
    exact ⟨home, links, hway⟩

/-! ## Opening -/

theorem Leads.creation (h : Leads d here path home name)
    (hlink : ∀ target, d.find? home name ≠ some (.link target)) :
    d.locate .creation here path = .ok (.name home name (d.find? home name) false) := by
  obtain ⟨front, links, hsteps, hdot, hdots, hshort, hway, hslash, -⟩ := way_of_locate h
  have hlast : d.walk .creation links home false [name] =
      .ok (.name home name (d.find? home name) false) := by
    have hlast (follow) : d.walkSteps .creation follow home false [name] =
        .ok (.name home name (d.find? home name) false) := by
      rw [walkSteps, if_neg hdot, if_neg hdots, if_neg (by simp), if_neg (by omega)]
      cases hfound : d.find? home name with
      | none => rfl
      | some entry =>
          cases entry with
          | link target => exact absurd hfound (hlink target)
          | _ => rfl
    cases links with
    | zero => exact hlast _
    | succ links => exact hlast _
  rw [locate_of_legal (legal_of_locate h), hsteps, ← hslash, walk_of_way (by simp) hway, hlast]
  simp [settle]

theorem openFile_of_none (h : Leads d here path home name) (hnone : d.find? home name = none) :
    d.openFile here path =
      .ok (⟨path, some d.contents.size, false⟩, (d.addFile home name .empty).1) := by
  have hcreation := h.creation (by simp [hnone])
  rw [openFile, hcreation, hnone]
  rfl

theorem openFile_of_file (h : Leads d here path home name)
    (hfile : d.find? home name = some (.file number)) :
    d.openFile here path = .ok (⟨path, some number, false⟩, d) := by
  have hcreation := h.creation (by simp [hfile])
  rw [openFile, hcreation, hfile]

/-! ## Removing and renaming -/

theorem remove_of_file (h : Leads d here path home name)
    (hfile : d.find? home name = some (.file number)) :
    d.remove here path = .ok (d.erase home name) := by
  unfold Leads at h
  rw [remove, h, hfile]
  rfl

theorem remove_of_none (h : Leads d here path home name) (hnone : d.find? home name = none) :
    d.remove here path = .error .notFound := by
  unfold Leads at h
  rw [remove, h, hnone]

section

variable {home' : Nat} {name' : String}

theorem rename_of_none (h : Leads d here source home name) (h' : Leads d here target home' name')
    (hnone : d.find? home name = none) : d.rename here source target = .error .notFound := by
  unfold Leads at h h'
  rw [rename, h, h', hnone]
  rfl

theorem rename_of_file (h : Leads d here source home name) (h' : Leads d here target home' name')
    (hfile : d.find? home name = some (.file number)) (hfree : d.find? home' name' = none) :
    d.rename here source target =
      .ok (if home = home' ∧ name = name' then d
        else d.move home name home' name' (.file number)) := by
  unfold Leads at h h'
  rw [rename, h, h', hfile, hfree]
  change (if home = home' ∧ name = name' then Except.ok d else .ok _) = _
  split_ifs <;> rfl

end

end Disk

end Backlog
