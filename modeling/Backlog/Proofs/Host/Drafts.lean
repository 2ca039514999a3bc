import Backlog.Proofs.Host.Operations

/-!
# Drafts

A file is replaced by a draft beside it: the draft is opened, filled, and given the name of the
file.  Up to then nothing changes on the disk but the place of the draft (`OnlyAt`).  So whoever
reads the file sees nothing of it, as long as the file is not the draft itself under another name
(`Clear.content_eq`).  The last step takes away the draft, and puts it where the file was
(`OnlyAt.rename`).
-/

namespace Backlog

namespace Disk

variable {d d' d'' : Disk} {here home number : Nat} {path draft name : String}

/-! ## Places of files that are to be -/

section

variable {place : Place} {mark : Bool} {steps : List String}

theorem walkSteps_creation
    {follow follow' : Nat → Bool → List String → Except IoFault Place}
    (hfollow : ∀ here mark steps, ¬EndsAtLink (follow' here mark steps) →
      follow here mark steps = .ok place → follow' here mark steps = .ok place)
    (hlink : ¬EndsAtLink (d.walkSteps .name follow' here mark steps))
    (h : d.walkSteps .creation follow here mark steps = .ok place) :
    d.walkSteps .name follow' here mark steps = .ok place := by
  induction steps generalizing here with
  | nil => exact h
  | cons step rest ih =>
      rw [walkSteps_cons (by decide)] at hlink ⊢
      rw [walkSteps] at h
      by_cases hdot : step = "."
      · rw [if_pos hdot] at h hlink ⊢
        exact ih hlink h
      rw [if_neg hdot] at h hlink ⊢
      by_cases hdots : step = ".."
      · rw [if_pos hdots] at h hlink ⊢
        exact ih hlink h
      rw [if_neg hdots] at h hlink ⊢
      by_cases hmark : rest.isEmpty ∧ mark = true ∧ Aim.creation = .creation
      · rw [if_pos hmark] at h
        cases h
      rw [if_neg hmark] at h
      by_cases hlong : maxName < step.utf8ByteSize
      · rw [if_pos hlong] at h
        cases h
      rw [if_neg hlong] at h hlink ⊢
      cases hfound : d.find? here step with
      | none =>
          rw [hfound] at h
          exact h
      | some entry =>
          rw [hfound] at h hlink
          cases entry with
          | directory number =>
              cases rest with
              | nil => exact h
              | cons _ _ => exact ih hlink h
          | link target =>
              cases rest with
              | nil => exact absurd ⟨_, _, _, _, rfl⟩ hlink
              | cons _ _ => exact hfollow _ _ _ hlink h
          | file number => exact h
          | device isFull => exact h

/-- What is to be a file where no link stands, is to be one there. -/
theorem walk_creation {links : Nat} (hlink : ¬EndsAtLink (d.walk .name links here mark steps))
    (h : d.walk .creation links here mark steps = .ok place) :
    d.walk .name links here mark steps = .ok place := by
  induction links generalizing here mark steps with
  | zero => exact walkSteps_creation (fun _ _ _ _ h => by cases h) hlink h
  | succ links ih => exact walkSteps_creation (fun _ _ _ hlink h => ih hlink h) hlink h

theorem leads_of_creation {entry : Option Entry} {isMarked : Bool}
    (hlink : ¬EndsAtLink (d.locate .name here path))
    (h : d.locate .creation here path = .ok (.name home name entry isMarked)) :
    d.Leads here path home name ∧ d.find? home name = entry := by
  have hlegal := legal_of_locate h
  rw [locate_of_legal hlegal, settle_name] at hlink
  have hwalk := h
  rw [locate_of_legal hlegal] at hwalk
  have hname : d.locate .name here path = .ok (.name home name entry isMarked) := by
    rw [locate_of_legal hlegal, settle_name]
    exact walk_creation hlink (settle_eq_ok hwalk)
  obtain ⟨front, links, hsteps, hdot, hup, -, hway, hmark, hentry⟩ := way_of_locate hname
  -- a slash after the name is refused
  have hslash : Path.endsInSlash path = false := by
    refine Bool.eq_false_iff.2 fun hslash => ?_
    have hrefused (follow) :
        d.walkSteps .creation follow home true [name] = .error .isDirectory := by
      rw [walkSteps, if_neg hdot, if_neg hup, if_pos ⟨rfl, rfl, rfl⟩]
    have hlast := settle_eq_ok hwalk
    rw [hsteps, walk_of_way (by simp) hway, hslash] at hlast
    cases links with
    | zero => cases (hrefused _).symm.trans hlast
    | succ links => cases (hrefused _).symm.trans hlast
  rw [hmark, hslash, hentry] at hname
  exact ⟨hname, hentry.symm⟩

end

/-! ## Changes at one place -/

/-- Nothing changed on a disk but what one name stands for, and what its file holds. -/
structure OnlyAt (d : Disk) (home : Nat) (name : String) (d' : Disk) : Prop where
  ways : SameWays d d'
  sound : Sound d'
  size : d'.directories.size = d.directories.size
  entries : ∀ directory other, ¬(directory = home ∧ other = name) →
    d'.find? directory other = d.find? directory other
  /-- A file that is new at the place was nowhere before. -/
  own : ∀ number, d'.find? home name = some (.file number) →
    d.find? home name = some (.file number) ∨ d.contents.size ≤ number
  bytes : ∀ number < d.contents.size, d.find? home name ≠ some (.file number) →
    d'.bytesOf number = d.bytesOf number

theorem OnlyAt.refl (hsound : Sound d) (home : Nat) (name : String) : OnlyAt d home name d :=
  ⟨.refl d, hsound, rfl, fun _ _ _ => rfl, fun _ => .inl, fun _ _ _ => rfl⟩

/-- The file at the place holds something else. -/
theorem OnlyAt.rewrite (h : OnlyAt d home name d')
    (hfile : d'.find? home name = some (.file number))
    (hdirectories : d''.directories = d'.directories)
    (hsize : d''.contents.size = d'.contents.size)
    (hbytes : ∀ other, number ≠ other → d''.bytesOf other = d'.bytesOf other) :
    OnlyAt d home name d'' := by
  have hfind (directory : Nat) (other : String) :
      d''.find? directory other = d'.find? directory other := by
    rw [find?, directoryAt, hdirectories, find?, directoryAt]
  refine ⟨h.ways.trans (sameWays_of_directories hdirectories),
    h.sound.of_directories hdirectories hsize, by rw [hdirectories, h.size], ?_, ?_, ?_⟩
  · intro directory other hother
    rw [hfind, h.entries directory other hother]
  · intro other hentry
    exact h.own other (hfind home name ▸ hentry)
  · intro other hlt hforeign
    have hne : number ≠ other := by
      rintro rfl
      rcases h.own number hfile with hbefore | hnew
      · exact hforeign hbefore
      · omega
    rw [hbytes other hne, h.bytes other hlt hforeign]

theorem OnlyAt.setBytes (h : OnlyAt d home name d')
    (hfile : d'.find? home name = some (.file number)) (bytes : ByteArray) :
    OnlyAt d home name (d'.setBytes number bytes) := by
  refine h.rewrite hfile rfl (size_setBytes bytes) fun other hne => ?_
  rw [bytesOf_setBytes (h.sound.files _ _ _ hfile), if_neg hne]

theorem OnlyAt.append (h : OnlyAt d home name d')
    (hfile : d'.find? home name = some (.file number)) (bytes : ByteArray) :
    OnlyAt d home name (d'.append number bytes) := by
  refine h.rewrite hfile rfl (size_append bytes) fun other hne => ?_
  rw [bytesOf_append (h.sound.files _ _ _ hfile), if_neg hne]

/-- The place is taken by a new file. -/
theorem onlyAt_addFile (hsound : Sound d) (hlt : home < d.directories.size)
    (hfree : d.find? home name = none) (bytes : ByteArray) :
    OnlyAt d home name (d.addFile home name bytes).1 := by
  have hends : EndsWays (d.find? home name) := by
    rw [hfree]
    exact endsWays_none
  have hput : SameWays d (d.put home name (.file d.contents.size)) :=
    sameWays_put hends ⟨nofun, nofun⟩
  refine ⟨hput.trans (sameWays_of_directories rfl), hsound.addFile _ _ _, size_put, ?_, ?_, ?_⟩
  · intro directory other hother
    rw [find?_addFile hlt, if_neg fun h => hother ⟨h.1.symm, h.2.symm⟩]
  · intro number hentry
    rw [find?_addFile hlt, if_pos ⟨rfl, rfl⟩] at hentry
    cases hentry
    exact .inr (Nat.le_refl _)
  · intro number hlt' _
    rw [bytesOf_addFile, if_neg (by omega)]

/-- The place is left. -/
theorem OnlyAt.erase (h : OnlyAt d home name d') (hends : EndsWays (d'.find? home name)) :
    OnlyAt d home name (d'.erase home name) := by
  refine ⟨h.ways.trans (sameWays_erase hends), h.sound.erase _ _, size_erase.trans h.size, ?_, ?_,
    h.bytes⟩
  · intro directory other hother
    rw [find?_erase, if_neg fun hsame => hother ⟨hsame.1.symm, hsame.2.symm⟩,
      h.entries directory other hother]
  · intro number hentry
    rw [find?_erase, if_pos ⟨rfl, rfl⟩] at hentry
    cases hentry

/-! ## Drafts in nobody's way -/

/-- A file can be replaced by a draft: no link stands at the draft, the path of the file does not
lead to it, and if a link stands at the path, then the path leads there also without it. -/
structure Clear (d : Disk) (here : Nat) (path draft : String) : Prop where
  link : ¬EndsAtLink (d.locate .name here draft)
  place : ∀ home name, d.Leads here draft home name →
    ∀ entry isMarked, d.locate .target here path ≠ .ok (.name home name entry isMarked)
  file : ∀ home name number, d.Leads here draft home name →
    d.find? home name = some (.file number) → d.entryAt? here path ≠ some (.file number)
  stays : ∀ home name target, d.locate .name here path =
      .ok (.name home name (some (.link target)) false) →
    (d.erase home name).locate .name here path = .ok (.name home name none false)

/-- No more changed on a disk than at the place of a draft. -/
def Beside (d : Disk) (here : Nat) (draft : String) (d' : Disk) : Prop :=
  d' = d ∨ ∃ home name, d.Leads here draft home name ∧ OnlyAt d home name d'

theorem Clear.content_eq (hclear : Clear d here path draft) (hsound : Sound d)
    (h : Beside d here draft d') : d'.content here path = d.content here path := by
  rcases h with rfl | ⟨home, name, hleads, honly⟩
  · rfl
  refine content_sameWays honly.ways ?_
  intro place hplace
  cases place with
  | directory number => rfl
  | name directory other entry isMarked =>
      have hother : ¬(directory = home ∧ other = name) := by
        rintro ⟨rfl, rfl⟩
        exact hclear.place _ _ hleads entry isMarked hplace
      have hentry : d.find? directory other = entry := find?_of_locate (by decide) hplace
      change d'.held (d'.find? directory other) = d.held entry
      rw [honly.entries directory other hother, hentry]
      cases entry with
      | none => rfl
      | some entry =>
          cases entry with
          | file number =>
              have hforeign : d.find? home name ≠ some (.file number) := by
                intro hdraft
                refine hclear.file home name number hleads hdraft ?_
                rw [entryAt?, hplace]
                rfl
              rw [held, held, honly.bytes number (hsound.files _ _ _ hentry) hforeign]
          | _ => rfl

/-- In a new directory nothing is in the way. -/
theorem clear_of_new {front : List String} {last last' : String} {there links : Nat}
    (hnames : Path.names path = front ++ [last]) (hnames' : Path.names draft = front ++ [last'])
    (hne : last' ≠ last) (hup : last ≠ "..") (hstart : start here draft = start here path)
    (hway : d.way maxLinks (start here path) front = some (there, links))
    (hempty : ∀ name, d.find? there name = none) : Clear d here path draft := by
  have hway' : d.way maxLinks (start here draft) front = some (there, links) := hstart ▸ hway
  have hfree {home : Nat} {name : String} {entry : Entry} {isMarked : Bool}
      (hplace : d.locate .name here path = .ok (.name home name (some entry) isMarked) ∨
        d.locate .name here draft = .ok (.name home name (some entry) isMarked)) : False := by
    have hhome : home = there := by
      rcases hplace with hplace | hplace
      · exact (place_of_names hnames hway hplace).1
      · exact (place_of_names hnames' hway' hplace).1
    have hentry : d.find? home name = some entry := by
      rcases hplace with hplace | hplace
      · exact find?_of_locate (by decide) hplace
      · exact find?_of_locate (by decide) hplace
    rw [hhome, hempty] at hentry
    cases hentry
  refine ⟨?_, ?_, ?_, ?_⟩
  · rintro ⟨home, name, target, isMarked, hplace⟩
    exact hfree (.inr hplace)
  · intro home name hleads entry isMarked hplace
    obtain ⟨-, rfl⟩ := place_of_names hnames' hway' hleads
    obtain ⟨_, hsame⟩ := place_of_missing hnames hup hway (hempty last) hplace
    cases hsame
    exact hne rfl
  · intro home name number hleads hfile
    unfold Leads at hleads
    rw [hfile] at hleads
    exact (hfree (.inr hleads)).elim
  · intro home name target hplace
    exact (hfree (.inl hplace)).elim

/-- Nothing is found at a path whose directory is missing. -/
theorem entryAt?_of_no_parent {front : List String} {last up : String}
    (hnames : Path.names path = front ++ [last]) (hup : Path.names up = front)
    (hpart : up.toList <+: path.toList) (hempty : up ≠ "")
    (hmissing : d.isDirectory here up ≠ true) : d.entryAt? here path = none := by
  cases hplace : d.locate .target here path with
  | error fault =>
      rw [entryAt?, hplace]
  | ok place =>
      refine entryAt?_of_no_way hnames ?_
      cases hway : d.way maxLinks (start here path) front with
      | none => rfl
      | some found =>
          have hlegal := legal_of_locate hplace
          exact absurd ((isDirectory_parent_iff hlegal hpart hempty hup).2 ⟨_, _, hway⟩) hmissing

/-- To create the directories for a file changes nothing at its path, and if it works, nothing is
in the way of a draft.  If a path goes back, its directory has to be there. -/
theorem createDirs_clear {front : List String} {last last' up : String} (hsound : Sound d)
    (hinside : here < d.directories.size) (hnames : Path.names path = front ++ [last])
    (hnames' : Path.names draft = front ++ [last']) (hne : last' ≠ last) (hlast : last ≠ "..")
    (hstart : start here draft = start here path) (hup : Path.names up = front)
    (hpart : up.toList <+: path.toList)
    (hback : ".." ∈ Path.names path → d.isDirectory here up = true)
    (hclear : Clear d here path draft) :
    (d.createDirs here up).2.content here path = d.content here path ∧
      ((d.createDirs here up).1 = .ok () → Sound (d.createDirs here up).2 ∧
        here < (d.createDirs here up).2.directories.size ∧
        Clear (d.createDirs here up).2 here path draft) := by
  by_cases hthere : up = "" ∨ d.isDirectory here up = true
  · have hsame : d.createDirs here up = (.ok (), d) := by
      rcases hthere with rfl | hdirectory
      · exact createDirs_empty d here
      · exact createDirs_of_isDirectory hdirectory
    rw [hsame]
    exact ⟨rfl, fun _ => ⟨hsound, hinside, hclear⟩⟩
  rw [not_or] at hthere
  obtain ⟨hempty, hmissing⟩ := hthere
  have hdots : ".." ∉ Path.names path := fun hmem => hmissing (hback hmem)
  have hnothing : d.entryAt? here path = none :=
    entryAt?_of_no_parent hnames hup hpart hempty hmissing
  -- from here on the directory is missing, so no name of the path goes back
  have hcreated : Created d here up (d.createDirs here up).1 (d.createDirs here up).2 := by
    refine created_createRow hsound hinside (fun hmem => hdots ?_) _
    rw [hnames, ← hup]
    exact List.mem_append_left _ hmem
  rcases hcreated with ⟨hsame, hdone⟩ | ⟨missing, hnew, hdone⟩
  · rw [hsame]
    refine ⟨rfl, fun hok => ?_⟩
    rcases hdone hok with h | h
    · exact absurd h hempty
    · exact absurd h hmissing
  · have hchild : GoesNew d here path (missing ++ [last]) (d.createDirs here up).2 :=
      hnew.child hpart (hup ▸ hnames)
    have hgone : (d.createDirs here up).2.entryAt? here path = none := by
      obtain ⟨before, -, -, hsplit, -⟩ := hchild.way
      cases missing with
      | nil => exact hchild.entryAt?_eq_none hlast
      | cons name missing =>
          refine hchild.entryAt?_eq_none ?_
          rintro rfl
          exact hdots (by simp [hsplit])
    refine ⟨by rw [content_eq, content_eq, hgone, hnothing]; rfl, fun hok => ?_⟩
    -- the last of the directories is new, and a new directory is empty
    obtain rfl := hdone hok
    obtain ⟨before, there, links, hsplit, hway, hfree⟩ := hchild.way
    obtain ⟨rfl, -⟩ := List.append_inj' (hsplit.symm.trans hnames) rfl
    exact ⟨hnew.sound, Nat.lt_of_lt_of_le hinside hnew.grown,
      clear_of_new hnames hnames' hne hlast hstart hway hfree⟩

/-! ## Work on a draft -/

/-- What an open draft is on a disk: a file that holds these bytes, or a device. -/
def IsOpen (d : Disk) (home : Nat) (name : String) (file : OpenFile) (bytes : ByteArray) : Prop :=
  (∃ number, file.number = some number ∧ d.find? home name = some (.file number) ∧
    d.bytesOf number = bytes) ∨
    file.number = none ∧ ∃ isFull, d.find? home name = some (.device isFull)

variable {file : OpenFile} {bytes : ByteArray}

theorem openFresh_draft (hsound : Sound d) (hinside : here < d.directories.size)
    (hlink : ¬EndsAtLink (d.locate .name here draft))
    (h : d.openFile here draft = .ok (file, d')) :
    ∃ home name, d.Leads here draft home name ∧ OnlyAt d home name (d'.truncate file) ∧
      IsOpen (d'.truncate file) home name file .empty := by
  unfold openFile at h
  cases hplace : d.locate .creation here draft with
  | error fault =>
      rw [hplace] at h
      cases h
  | ok place =>
      rw [hplace] at h
      cases place with
      | directory number => cases h
      | name home name entry isMarked =>
          obtain ⟨hleads, hentry⟩ := leads_of_creation hlink hplace
          have hlt : home < d.directories.size := hsound.lt_of_locate hinside hleads
          refine ⟨home, name, hleads, ?_⟩
          cases entry with
          | none =>
              cases h
              have honly := onlyAt_addFile hsound hlt hentry .empty
              have hfile : (d.addFile home name .empty).1.find? home name =
                  some (.file d.contents.size) := by
                rw [find?_addFile hlt, if_pos ⟨rfl, rfl⟩]
              refine ⟨honly.setBytes hfile .empty, .inl ⟨_, rfl, hfile, ?_⟩⟩
              exact (bytesOf_setBytes (honly.sound.files _ _ _ hfile) _ _).trans (if_pos rfl)
          | some entry =>
              cases entry with
              | directory number => cases h
              | link target => cases h
              | file number =>
                  cases h
                  have honly := (OnlyAt.refl hsound home name).setBytes hentry .empty
                  refine ⟨honly, .inl ⟨number, rfl, hentry, ?_⟩⟩
                  exact (bytesOf_setBytes (hsound.files _ _ _ hentry) _ _).trans (if_pos rfl)
              | device isFull =>
                  cases h
                  exact ⟨.refl hsound home name, .inr ⟨rfl, isFull, hentry⟩⟩

/-- To write to a draft changes nothing else.  If all bytes were written, they are in it. -/
theorem OnlyAt.write (h : OnlyAt d home name d') (hopen : IsOpen d' home name file bytes)
    (more : ByteArray) :
    OnlyAt d home name (d'.write file more).2 ∧
      ∃ bytes', IsOpen (d'.write file more).2 home name file bytes' ∧
        ((d'.write file more).1.fault = none → bytes' = bytes ++ more) := by
  unfold Disk.write
  split_ifs with hfull
  · exact ⟨h, bytes, hopen, nofun⟩
  · rcases hopen with ⟨number, hnumber, hfile, rfl⟩ | ⟨hnumber, hdevice⟩
    · rw [hnumber]
      refine ⟨h.append hfile more, _, .inl ⟨number, hnumber, hfile, rfl⟩, fun _ => ?_⟩
      exact (bytesOf_append (h.sound.files _ _ _ hfile) _ _).trans (if_pos rfl)
    · rw [hnumber]
      exact ⟨h, _, .inr ⟨hnumber, hdevice⟩, fun _ => rfl⟩

/-! ## The end of a draft -/

/-- No link stands at a draft while it is worked on. -/
theorem OnlyAt.not_link (h : OnlyAt d home name d') (hleads : d.Leads here draft home name)
    (hlink : ¬EndsAtLink (d.locate .name here draft)) (target : String) :
    d'.find? home name ≠ some (.link target) := by
  intro hentry
  have hbefore := h.ways.symm.find? hentry fun hleaf => hleaf.2 target rfl
  exact hlink ⟨home, name, target, false, by rw [← hbefore]; exact hleads⟩

theorem OnlyAt.remove (h : OnlyAt d home name d') (hleads : d.Leads here draft home name)
    (hlink : ¬EndsAtLink (d.locate .name here draft)) (hremoved : d'.remove here draft = .ok d'') :
    OnlyAt d home name d'' := by
  obtain ⟨home', name', entry, hplace, hdirectory, rfl⟩ := remove_eq_ok hremoved
  have hleads' : d'.Leads here draft home name := hleads.sameWays h.ways
  unfold Leads at hleads'
  obtain ⟨rfl, rfl, hentry⟩ : home = home' ∧ name = name' ∧ d'.find? home name = some entry := by
    simpa using hleads'.symm.trans hplace
  refine h.erase ?_
  rintro e he
  rw [hentry] at he
  cases he
  refine ⟨hdirectory, ?_⟩
  rintro target rfl
  exact h.not_link hleads hlink target hentry

/-- An open draft can be removed. -/
theorem remove_of_isOpen (hleads : d.Leads here draft home name)
    (hopen : IsOpen d home name file bytes) :
    d.remove here draft = .ok (d.erase home name) := by
  rcases hopen with ⟨number, -, hfile, -⟩ | ⟨-, isFull, hdevice⟩
  · exact remove_of_file hleads hfile
  · unfold Leads at hleads
    rw [Disk.remove, hleads, hdevice]
    rfl

theorem rename_eq_ok (hsource : d.Leads here draft home name)
    (hfile : d.find? home name = some (.file number))
    (h : d.rename here draft path = .ok d') :
    ∃ home' name', d.Leads here path home' name' ∧
      (∀ other, d.find? home' name' ≠ some (.directory other)) ∧
      (¬(home = home' ∧ name = name') → d' = d.move home name home' name' (.file number)) := by
  unfold Leads at hsource
  rw [rename, hsource, hfile] at h
  cases hplace : d.locate .name here path with
  | error fault =>
      rw [hplace] at h
      cases h
  | ok place =>
      rw [hplace] at h
      cases place with
      | directory number => cases h
      | name home' name' taken isMarked =>
          have htaken : d.find? home' name' = taken := find?_of_locate (by decide) hplace
          cases isMarked with
          | true => cases h
          | false =>
              refine ⟨home', name', by rw [Leads, hplace, htaken], ?_⟩
              have hend (hother : ∀ other, taken ≠ some (.directory other))
                  (h : (if home = home' ∧ name = name' then .ok d
                    else .ok (d.move home name home' name' (.file number)) :
                      Except IoFault Disk) = .ok d') :
                  (∀ other, d.find? home' name' ≠ some (.directory other)) ∧
                    (¬(home = home' ∧ name = name') →
                      d' = d.move home name home' name' (.file number)) := by
                refine ⟨htaken ▸ hother, fun hne => ?_⟩
                rw [if_neg hne] at h
                exact (Except.ok.inj h).symm
              cases taken with
              | none => exact hend (fun _ => (Option.some_ne_none _).symm) h
              | some entry =>
                  cases entry with
                  | directory other =>
                      cases hwithin : d.isWithin home other <;>
                      · change (throw _ : Except IoFault Disk) = _ at h
                        cases h
                  | _ =>
                      refine hend (fun other heq => ?_) h
                      cases heq

/-- The way to the directory of a name, by the names of a path. -/
theorem Leads.way {front : List String} {last : String} (h : d.Leads here path home name)
    (hnames : Path.names path = front ++ [last]) :
    name = last ∧ name ≠ ".." ∧
      ∃ links, d.way maxLinks (start here path) front = some (home, links) := by
  obtain ⟨before, links, hsteps, hdot, hup, -, hway, -, -⟩ := way_of_locate h
  have hlast : Path.names path = (before.filter fun step => step ≠ ".") ++ [name] := by
    rw [Path.names_eq_filter_steps, hsteps, List.filter_append]
    simp [hdot]
  obtain ⟨hfront, hname⟩ := List.append_inj' (hlast.symm.trans hnames) rfl
  refine ⟨(List.cons.inj hname).1, hup, links, ?_⟩
  rw [← hfront, way_filter, hway]

theorem find?_move_file {home' : Nat} {name' : String} (hlt : home' < d.directories.size)
    (directory : Nat) (other : String) :
    (d.move home name home' name' (.file number)).find? directory other =
      if home' = directory ∧ name' = other then some (.file number)
      else if home = directory ∧ name = other then none else d.find? directory other := by
  rw [← find?_erase]
  exact find?_put _ _ _ _ _ _ (by rwa [size_erase])

/-- A path leads to its place also without what stands there. -/
theorem Clear.leads_erase {home' : Nat} {name' : String} (hclear : Clear d here path draft)
    (hleads : d.Leads here path home' name')
    (hdirectory : ∀ other, d.find? home' name' ≠ some (.directory other)) :
    (d.erase home' name').Leads here path home' name' := by
  by_cases hlink : ∃ target, d.find? home' name' = some (.link target)
  · obtain ⟨target, hlink⟩ := hlink
    unfold Leads at hleads ⊢
    rw [find?_erase, if_pos ⟨rfl, rfl⟩]
    exact hclear.stays home' name' target (hlink ▸ hleads)
  · refine hleads.sameWays (sameWays_erase ?_)
    intro entry hentry
    refine ⟨?_, ?_⟩
    · rintro other rfl
      exact hdirectory other hentry
    · rintro target rfl
      exact hlink ⟨target, hentry⟩

/-- Where no way goes through the source, a file that moves changes the ways like the removal of
what stood at its target. -/
theorem SameWays.move {home' : Nat} {name' : String} (h : SameWays d d')
    (hends : EndsWays (d.find? home name)) (number : Nat)
    (hlt : home' < d'.directories.size) :
    SameWays (d.erase home' name') (d'.move home name home' name' (.file number)) := by
  refine ⟨?_, ?_⟩
  · intro other
    have hparent : ((d'.move home name home' name' (.file number)).directoryAt other).parent =
        (d'.directoryAt other).parent := (parent_put other).trans (parent_erase d' home name other)
    rw [hparent, parent_erase, h.parent]
  · intro directory other
    rw [find?_erase, find?_move_file hlt]
    split_ifs
    · exact .inr ⟨endsWays_none, endsWays_file number⟩
    · rename_i hplace
      rw [← hplace.1, ← hplace.2]
      exact .inr ⟨hends, endsWays_none⟩
    · exact h.entries directory other

/-- To rename a draft puts it where the file was. -/
theorem OnlyAt.rename (h : OnlyAt d home name d') (hsound : Sound d)
    (hinside : here < d.directories.size) (hclear : Clear d here path draft)
    (hleads : d.Leads here draft home name) (hfile : d'.find? home name = some (.file number))
    (hrenamed : d'.rename here draft path = .ok d'') :
    ∃ home' name', ¬(home = home' ∧ name = name') ∧ d'.Leads here path home' name' ∧
      d''.Leads here path home' name' ∧ d'' = d'.move home name home' name' (.file number) ∧
      home' < d'.directories.size := by
  obtain ⟨home', name', htarget, hdirectory, hmoved⟩ :=
    rename_eq_ok (hleads.sameWays h.ways) hfile hrenamed
  have htarget₀ : d.Leads here path home' name' := htarget.sameWays h.ways.symm
  have hlt : home' < d'.directories.size := by
    rw [h.size]
    exact hsound.lt_of_locate hinside htarget₀
  have hne : ¬(home = home' ∧ name = name') := by
    rintro ⟨rfl, rfl⟩
    have hplace : d.locate .target here path =
        .ok (.name home name (d.find? home name) false) := by
      unfold Leads at hleads htarget₀
      rw [locate_target (by rw [htarget₀, ← hleads]; exact hclear.link), htarget₀,
        settle_unmarked]
    exact hclear.place home name hleads _ _ hplace
  obtain rfl := hmoved hne
  have hsame : d'.find? home' name' = d.find? home' name' :=
    h.entries home' name' fun h => hne ⟨h.1.symm, h.2.symm⟩
  have hstays : (d.erase home' name').Leads here path home' name' := by
    refine hclear.leads_erase htarget₀ fun other => ?_
    rw [← hsame]
    exact hdirectory other
  have hends : EndsWays (d.find? home name) := by
    rcases h.ways.entries home name with hsame | ⟨hbefore, -⟩
    · rw [← hsame, hfile]
      exact endsWays_file number
    · exact hbefore
  exact ⟨home', name', hne, htarget, hstays.sameWays (h.ways.move hends number hlt), rfl, hlt⟩

theorem OnlyAt.content_rename (h : OnlyAt d home name d') (hsound : Sound d)
    (hinside : here < d.directories.size) (hclear : Clear d here path draft)
    (hleads : d.Leads here draft home name) (hfile : d'.find? home name = some (.file number))
    (hrenamed : d'.rename here draft path = .ok d'') :
    d''.content here path = some (d'.bytesOf number) := by
  obtain ⟨home', name', -, -, hplace, rfl, hlt⟩ :=
    h.rename hsound hinside hclear hleads hfile hrenamed
  have hentry : (d'.move home name home' name' (.file number)).find? home' name' =
      some (.file number) := by
    rw [find?_move_file hlt, if_pos ⟨rfl, rfl⟩]
  rw [content_of_locate hplace (by rw [hentry]; exact nofun), hentry]
  rfl

/-- A draft with the names of the file, up to the last one, is gone when it was renamed. -/
theorem OnlyAt.entryAt?_rename {front : List String} {last last' : String}
    (h : OnlyAt d home name d') (hsound : Sound d) (hinside : here < d.directories.size)
    (hclear : Clear d here path draft) (hleads : d.Leads here draft home name)
    (hfile : d'.find? home name = some (.file number))
    (hrenamed : d'.rename here draft path = .ok d'') (hnames : Path.names path = front ++ [last])
    (hnames' : Path.names draft = front ++ [last']) (hstart : start here draft = start here path) :
    d''.entryAt? here draft = none := by
  obtain ⟨home', name', hne, htarget, hplace, rfl, hlt⟩ :=
    h.rename hsound hinside hclear hleads hfile hrenamed
  have hleads' := hleads.sameWays h.ways
  obtain ⟨-, -, links, hway⟩ := htarget.way hnames
  obtain ⟨-, -, links', hway'⟩ := hplace.way hnames
  obtain ⟨rfl, rfl⟩ := place_of_names hnames' (hstart.symm ▸ hway) hleads'
  obtain ⟨-, hup, -⟩ := hleads'.way hnames'
  refine entryAt?_of_missing hnames' hup (hstart.symm ▸ hway') ?_
  rw [find?_move_file hlt, if_neg fun h => hne ⟨rfl, h.2.symm⟩, if_pos ⟨rfl, rfl⟩]

end Disk

end Backlog
