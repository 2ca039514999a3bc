import Backlog.Proofs.Host.Drafts

/-!
# Opened files

A file is opened where its path leads to over all links, and whoever reads the path later is led to
the same place (`walk_opening`).  So after the opening the path leads to the open file (`Finds`),
and no file holds anything else than before (`openFile_finds`).  For a file that is there no
directories are created (`createDirs_of_entry`), so that it is this file that is opened.
-/

namespace Backlog

namespace Disk

variable {d d' : Disk} {here home number : Nat} {path name : String} {place : Place}

/-- Over all links a path leads to a name in a directory, and no slash comes after it. -/
def Reaches (d : Disk) (here : Nat) (path : String) (home : Nat) (name : String) : Prop :=
  d.locate .target here path = .ok (.name home name (d.find? home name) false)

theorem Reaches.sameWays (h : Reaches d here path home name) (hways : SameWays d d') :
    Reaches d' here path home name := by
  have hlegal := legal_of_locate h
  have hwalk : Agrees d' (d.walk .target maxLinks (start here path) (Path.endsInSlash path)
      (Path.steps path)) (d'.walk .target maxLinks (start here path) (Path.endsInSlash path)
      (Path.steps path)) := walk_sameWays hways
  unfold Reaches at h ⊢
  rw [locate_of_legal hlegal] at h ⊢
  rw [settle_eq_ok h] at hwalk
  have hafter : d'.walk .target maxLinks (start here path) (Path.endsInSlash path)
      (Path.steps path) = .ok (.name home name (d'.find? home name) false) := hwalk
  rw [hafter, settle_unmarked]

theorem Reaches.entryAt?_eq (h : Reaches d here path home name) :
    d.entryAt? here path = d.find? home name := by
  unfold Reaches at h
  rw [entryAt?, h]
  rfl

/-- A path leads to a file. -/
def Finds (d : Disk) (here : Nat) (path : String) (number : Nat) : Prop :=
  ∃ home name, d.Reaches here path home name ∧ d.find? home name = some (.file number)

theorem Finds.entryAt?_eq (h : Finds d here path number) :
    d.entryAt? here path = some (.file number) := by
  obtain ⟨home, name, hreaches, hfile⟩ := h
  rw [hreaches.entryAt?_eq, hfile]

theorem Finds.content_eq (h : Finds d here path number) :
    d.content here path = some (d.bytesOf number) := by
  rw [Disk.content_eq, h.entryAt?_eq]
  rfl

theorem Finds.append (h : Finds d here path number) (other : Nat) (bytes : ByteArray) :
    Finds (d.append other bytes) here path number := by
  obtain ⟨home, name, hreaches, hfile⟩ := h
  exact ⟨home, name, hreaches.sameWays (sameWays_of_directories rfl), hfile⟩

/-! ## Places of files that are opened -/

section

variable {mark : Bool} {steps : List String}

/-- A name in a directory of the disk, without a slash after it. -/
def IsPlain (d : Disk) : Place → Prop
  | .directory _ => True
  | .name home name entry isMarked =>
      home < d.directories.size ∧ entry = d.find? home name ∧ isMarked = false

theorem walkSteps_opening {follow follow' : Nat → Bool → List String → Except IoFault Place}
    (hsound : Sound d)
    (hfollow : ∀ here mark steps, here < d.directories.size → follow here mark steps = .ok place →
      follow' here mark steps = .ok place ∧ d.IsPlain place)
    (hhere : here < d.directories.size)
    (h : d.walkSteps .creation follow here mark steps = .ok place) :
    d.walkSteps .target follow' here mark steps = .ok place ∧ d.IsPlain place := by
  induction steps generalizing here with
  | nil =>
      cases h
      exact ⟨rfl, trivial⟩
  | cons step rest ih =>
      rw [walkSteps_cons (by decide)]
      rw [walkSteps] at h
      by_cases hdot : step = "."
      · rw [if_pos hdot] at h ⊢
        exact ih hhere h
      rw [if_neg hdot] at h ⊢
      by_cases hdots : step = ".."
      · rw [if_pos hdots] at h ⊢
        exact ih (hsound.parents here) h
      rw [if_neg hdots] at h ⊢
      by_cases hrefused : rest.isEmpty ∧ mark = true ∧ Aim.creation = .creation
      · rw [if_pos hrefused] at h
        cases h
      rw [if_neg hrefused] at h
      by_cases hlong : maxName < step.utf8ByteSize
      · rw [if_pos hlong] at h
        cases h
      rw [if_neg hlong] at h ⊢
      -- a slash after the last step was refused
      have hmark : rest = [] → mark = false := by
        rintro rfl
        simpa using hrefused
      have hplain (entry : Option Entry) (hfound : d.find? here step = entry) (hrest : rest = []) :
          d.IsPlain (.name here step entry mark) := ⟨hhere, hfound.symm, hmark hrest⟩
      cases hfound : d.find? here step with
      | none =>
          rw [hfound] at h
          cases rest with
          | nil =>
              cases h
              exact ⟨rfl, hplain _ hfound rfl⟩
          | cons _ _ => cases h
      | some entry =>
          rw [hfound] at h
          cases entry with
          | directory number =>
              cases rest with
              | nil =>
                  cases h
                  exact ⟨rfl, hplain _ hfound rfl⟩
              | cons _ _ => exact ih (hsound.directories _ _ _ hfound) h
          | link target =>
              dsimp only at h
              rw [if_neg fun hname => by cases hname.2] at h
              rw [arrive_target_link]
              refine hfollow _ _ _ ?_ h
              split_ifs
              · exact Nat.lt_of_le_of_lt (Nat.zero_le _) hhere
              · exact hhere
          | file number =>
              cases rest with
              | nil =>
                  cases h
                  exact ⟨rfl, hplain _ hfound rfl⟩
              | cons _ _ => cases h
          | device isFull =>
              cases rest with
              | nil =>
                  cases h
                  exact ⟨rfl, hplain _ hfound rfl⟩
              | cons _ _ => cases h

/-- What is to be a file leads where it is found again. -/
theorem walk_opening {links : Nat} (hsound : Sound d) (hhere : here < d.directories.size)
    (h : d.walk .creation links here mark steps = .ok place) :
    d.walk .target links here mark steps = .ok place ∧ d.IsPlain place := by
  induction links generalizing here mark steps with
  | zero => exact walkSteps_opening hsound (fun _ _ _ _ h => by cases h) hhere h
  | succ links ih => exact walkSteps_opening hsound (fun _ _ _ hhere h => ih hhere h) hhere h

theorem reaches_of_creation {entry : Option Entry} {isMarked : Bool} (hsound : Sound d)
    (hinside : here < d.directories.size)
    (h : d.locate .creation here path = .ok (.name home name entry isMarked)) :
    d.Reaches here path home name ∧ home < d.directories.size ∧ d.find? home name = entry := by
  have hlegal := legal_of_locate h
  rw [locate_of_legal hlegal] at h
  obtain ⟨hwalk, hlt, rfl, rfl⟩ :=
    walk_opening hsound (start_lt hinside path) (settle_eq_ok h)
  refine ⟨?_, hlt, rfl⟩
  unfold Reaches
  rw [locate_of_legal hlegal, hwalk, settle_unmarked]

end

/-! ## Opening -/

/-- A file that was never there holds nothing. -/
theorem bytesOf_of_le (h : d.contents.size ≤ number) : d.bytesOf number = .empty := by
  rw [bytesOf, Array.getD_eq_getD_getElem?, Array.getElem?_eq_none h]
  rfl

/-- An open file that is no device is found where it was opened, and the others are as before. -/
theorem openFile_finds {file : OpenFile} (hsound : Sound d) (hinside : here < d.directories.size)
    (h : d.openFile here path = .ok (file, d')) (hnumber : file.number = some number) :
    file.isFull = false ∧ number < d'.contents.size ∧ Finds d' here path number ∧
      (∀ other, d'.bytesOf other = d.bytesOf other) ∧
      (d.entryAt? here path = some (.file number) ∨ d.entryAt? here path = none) := by
  unfold openFile at h
  cases hplace : d.locate .creation here path with
  | error fault =>
      rw [hplace] at h
      cases h
  | ok place =>
      rw [hplace] at h
      cases place with
      | directory number => cases h
      | name home name entry isMarked =>
          obtain ⟨hreaches, hlt, hentry⟩ := reaches_of_creation hsound hinside hplace
          rw [hreaches.entryAt?_eq, hentry]
          cases entry with
          | none =>
              cases h
              obtain rfl : d.contents.size = number := Option.some.inj hnumber
              have hput : SameWays d (d.put home name (.file d.contents.size)) :=
                sameWays_put (hentry ▸ endsWays_none) ⟨nofun, nofun⟩
              refine ⟨rfl, ?_, ⟨home, name,
                hreaches.sameWays (hput.trans (sameWays_of_directories rfl)), ?_⟩, ?_, .inr rfl⟩
              · exact Nat.lt_of_lt_of_eq (Nat.lt_succ_self _) (Array.size_push _).symm
              · change (d.addFile home name .empty).1.find? home name = _
                rw [find?_addFile hlt, if_pos ⟨rfl, rfl⟩]
              · intro other
                change (d.addFile home name .empty).1.bytesOf other = _
                rw [bytesOf_addFile]
                split_ifs with hnew
                · rw [bytesOf_of_le (Nat.le_of_eq hnew.symm)]
                · rfl
          | some entry =>
              cases entry with
              | directory number => cases h
              | link target => cases h
              | file number =>
                  cases h
                  cases hnumber
                  exact ⟨rfl, hsound.files _ _ _ hentry, ⟨home, name, hreaches, hentry⟩,
                    fun _ => rfl, .inl rfl⟩
              | device isFull =>
                  cases h
                  cases hnumber

/-- For something that is there and is no directory, the directories are there too. -/
theorem createDirs_of_entry {entry : Entry} (h : d.entryAt? here path = some entry)
    (hother : ∀ number, entry ≠ .directory number) :
    ∃ up, Path.parent? path = some up ∧ d.createDirs here up = (.ok (), d) := by
  have hlegal : Legal path := by
    unfold entryAt? at h
    cases hplace : d.locate .target here path with
    | error fault =>
        rw [hplace] at h
        cases h
    | ok place => exact legal_of_locate hplace
  have hnames : Path.names path ≠ [] := by
    intro hnames
    have hway : ∃ there links,
        d.way maxLinks (start here path) (Path.names path) = some (there, links) :=
      hnames ▸ ⟨_, _, rfl⟩
    obtain ⟨number, hentry⟩ := isDirectory_eq_true.1 ((isDirectory_iff hlegal).2 hway)
    exact hother number (Option.some.inj (h.symm.trans hentry))
  obtain ⟨front, last, hlast⟩ := (List.eq_nil_or_concat (Path.names path)).resolve_left hnames
  rw [List.concat_eq_append] at hlast
  obtain ⟨up, hparent, hup, hpart, -, -⟩ := Path.parent_names hlast
  refine ⟨up, hparent, ?_⟩
  by_cases hempty : up = ""
  · rw [hempty]
    exact createDirs_empty d here
  · refine createDirs_of_isDirectory (Decidable.of_not_not fun hmissing => ?_)
    rw [entryAt?_of_no_parent hlast hup hpart hempty hmissing] at h
    cases h

end Disk

end Backlog
