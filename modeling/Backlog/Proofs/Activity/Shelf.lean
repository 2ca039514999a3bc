import Backlog.Proofs.Host.Drafts

/-!
# The files of a log

A log is a row of files in one directory: the one that is written, and behind it those that were
put aside under the numbers from one on.  What the log holds is read from the highest number
down (`stored`).

`Shelf` says that these files can be told apart, and that nothing but them is in their way.  If the
directories for them have to be created first, it says so of the disk after that (`Prepared`).

To put the file aside moves each of them up by one place.  On the disk this is a row of renamings
from the highest number down, each of them to a free place (`Filed.rename`), and at its end the
place of the file itself is free for a fresh one (`Filed.reopen`).  Lost is the file with the
highest number then, and nothing else (`Renewed.stored_of_raised`).
-/

namespace Backlog

namespace LogWriter

/-! ## Names and bytes -/

/-- The name of a file of a log: of the one that is written, or of one that was put aside. -/
def slotName (name : String) : Nat → String
  | 0 => name
  | i + 1 => rotatedName name (i + 1)

theorem slotName_inj {name : String} {i j : Nat} (h : slotName name i = slotName name j) :
    i = j := by
  cases i with
  | zero =>
      cases j with
      | zero => rfl
      | succ j => exact absurd h.symm (Path.rotatedName_ne name (j + 1))
  | succ i =>
      cases j with
      | zero => exact absurd h (Path.rotatedName_ne name (i + 1))
      | succ j => exact Path.rotatedName_inj h

/-- The bytes of a row of files, those with the highest number first. -/
def fromTop (row : Nat → ByteArray) : Nat → ByteArray
  | 0 => row 0
  | n + 1 => row (n + 1) ++ fromTop row n

section

variable {row row' : Nat → ByteArray} {n : Nat}

theorem fromTop_congr (h : ∀ i ≤ n, row' i = row i) : fromTop row' n = fromTop row n := by
  induction n with
  | zero => exact h 0 (Nat.le_refl _)
  | succ n ih =>
      rw [fromTop, fromTop, h (n + 1) (Nat.le_refl _), ih fun i hi => h i (by omega)]

/-- More bytes in the last file are more bytes at the end. -/
theorem fromTop_append {bytes : ByteArray} (hlast : row' 0 = row 0 ++ bytes)
    (h : ∀ i, 0 < i → i ≤ n → row' i = row i) : fromTop row' n = fromTop row n ++ bytes := by
  induction n with
  | zero => exact hlast
  | succ n ih =>
      rw [fromTop, fromTop, h (n + 1) (by omega) (Nat.le_refl _),
        ih fun i hpos hi => h i hpos (by omega), ByteArray.append_assoc]

/-- If all files moved up by one, then the first one is missing, and there is a new last one. -/
theorem fromTop_raise (h : ∀ i ≤ n, row' (i + 1) = row i) :
    fromTop row' (n + 1) = fromTop row n ++ row' 0 := by
  induction n with
  | zero => rw [fromTop, fromTop, fromTop, h 0 (Nat.le_refl _)]
  | succ n ih =>
      rw [fromTop, h (n + 1) (Nat.le_refl _), ih fun i hi => h i (by omega), fromTop,
        ByteArray.append_assoc]

end

/-- What a log holds, from the file with the highest number down. -/
def stored (d : Disk) (here : Nat) (path : String) (keep : Nat) : ByteArray :=
  fromTop (fun i => (d.content here (slotName path i)).getD .empty) keep

/-! ## Shelves -/

/-- The files of a log, or free places for them, in a directory of a disk. -/
structure Shelf (d : Disk) (here : Nat) (path : String) (home : Nat) (name : String)
    (keep : Nat) : Prop where
  sound : d.Sound
  inside : here < d.directories.size
  leads : d.Leads here path home name
  short : ∀ i ≤ keep, (slotName path i).utf8ByteSize ≤ Disk.maxPath ∧
    (slotName name i).utf8ByteSize ≤ Disk.maxName
  files : ∀ i ≤ keep, d.find? home (slotName name i) = none ∨
    ∃ number, d.find? home (slotName name i) = some (.file number)
  /-- No file of the log has another name. -/
  alone : ∀ i ≤ keep, ∀ number, d.find? home (slotName name i) = some (.file number) →
    ∀ directory other, d.find? directory other = some (.file number) →
      directory = home ∧ other = slotName name i

/-- Not one of the files of a log. -/
def Outside (home : Nat) (name : String) (keep directory : Nat) (other : String) : Prop :=
  ∀ i ≤ keep, ¬(directory = home ∧ other = slotName name i)

/-- Nothing was created or changed on a disk but the files of a log. -/
def Untouched (d d' : Disk) (home : Nat) (name : String) (keep : Nat) : Prop :=
  ∀ directory other, Outside home name keep directory other →
    d'.find? directory other = d.find? directory other ∧
      d'.held (d.find? directory other) = d.held (d.find? directory other)

theorem Untouched.refl (d : Disk) (home : Nat) (name : String) (keep : Nat) :
    Untouched d d home name keep := fun _ _ _ => ⟨rfl, rfl⟩

theorem Untouched.trans {d d' d'' : Disk} {home keep : Nat} {name : String}
    (h : Untouched d d' home name keep) (h' : Untouched d' d'' home name keep) :
    Untouched d d'' home name keep := by
  intro directory other houtside
  obtain ⟨hfind, hheld⟩ := h directory other houtside
  obtain ⟨hfind', hheld'⟩ := h' directory other houtside
  rw [hfind] at hfind' hheld'
  exact ⟨hfind', hheld'.trans hheld⟩

variable {d d' : Disk} {here home keep number : Nat} {path name : String}

theorem Shelf.home_lt (h : Shelf d here path home name keep) : home < d.directories.size :=
  h.sound.lt_of_locate h.inside h.leads

theorem Shelf.leads_slot (h : Shelf d here path home name keep) {i : Nat} (hi : i ≤ keep) :
    d.Leads here (slotName path i) home (slotName name i) := by
  cases i with
  | zero => exact h.leads
  | succ i => exact h.leads.rotated (h.short (i + 1) hi).1 (h.short (i + 1) hi).2

theorem Shelf.content_slot (h : Shelf d here path home name keep) {i : Nat} (hi : i ≤ keep) :
    d.content here (slotName path i) = d.held (d.find? home (slotName name i)) := by
  refine Disk.content_of_locate (h.leads_slot hi) ?_
  intro target hlink
  rcases h.files i hi with hfree | ⟨number, hfile⟩
  · rw [hfree] at hlink
    cases hlink
  · rw [hfile] at hlink
    cases hlink

theorem Shelf.stored_eq (h : Shelf d here path home name keep) :
    stored d here path keep =
      fromTop (fun i => (d.held (d.find? home (slotName name i))).getD .empty) keep :=
  fromTop_congr fun i hi => by rw [h.content_slot hi]

theorem Shelf.endsWays (h : Shelf d here path home name keep) {i : Nat} (hi : i ≤ keep) :
    Disk.EndsWays (d.find? home (slotName name i)) := by
  rcases h.files i hi with hfree | ⟨number, hfile⟩
  · rw [hfree]
    exact Disk.endsWays_none
  · rw [hfile]
    exact Disk.endsWays_file number

/-! ## Directories that are created -/

/-- The directories for a log were created, as far as they were missing, and then its files can be
told apart. -/
structure Prepared (d : Disk) (here : Nat) (path : String) (home : Nat) (name : String)
    (keep : Nat) (made : Disk) : Prop where
  sound : d.Sound
  inside : here < d.directories.size
  creates : ∃ up, Path.parent? path = some up ∧ d.createDirs here up = (.ok (), made)
  shelf : Shelf made here path home name keep

/-- Where the files of a log can be told apart, no directory is missing. -/
theorem Shelf.prepared (h : Shelf d here path home name keep) :
    Prepared d here path home name keep d :=
  ⟨h.sound, h.inside, h.leads.createDirs, h⟩

variable {made : Disk}

theorem Prepared.grown (h : Prepared d here path home name keep made) : d.Grown made := by
  obtain ⟨up, -, hmade⟩ := h.creates
  have hgrown := Disk.grown_createDirs h.sound h.inside up
  rwa [hmade] at hgrown

theorem Shelf.names_slot (h : Shelf d here path home name keep) :
    ∃ front, ∀ i, Path.names (slotName path i) = front ++ [slotName name i] := by
  obtain ⟨front, hnames, -, hrotated⟩ := h.leads.names
  refine ⟨front, fun i => ?_⟩
  cases i with
  | zero => exact hnames
  | succ i => exact hrotated (i + 1)

theorem slotName_isPart (path : String) (i : Nat) : path.toList <+: (slotName path i).toList := by
  cases i with
  | zero => exact List.prefix_rfl
  | succ i => exact Path.toList_rotatedName path (i + 1) ▸ List.prefix_append _ _

/-- If a directory was missing, no file of the log was found before. -/
theorem Prepared.before (h : Prepared d here path home name keep made) :
    made = d ∨ ∀ i, d.content here (slotName path i) = none := by
  obtain ⟨up, hparent, hmade⟩ := h.creates
  obtain ⟨front, hnames⟩ := h.shelf.names_slot
  obtain ⟨up', hparent', hup, hpart, -, -⟩ := Path.parent_names (hnames 0)
  obtain rfl : up' = up := Option.some.inj (hparent'.symm.trans hparent)
  have hsame (hthere : d.createDirs here up' = (.ok (), d)) : made = d :=
    (Prod.mk.inj (hmade.symm.trans hthere)).2
  by_cases hempty : up' = ""
  · exact .inl (hsame (hempty ▸ Disk.createDirs_empty d here))
  by_cases hdirectory : d.isDirectory here up' = true
  · exact .inl (hsame (Disk.createDirs_of_isDirectory hdirectory))
  · refine .inr fun i => ?_
    rw [Disk.content_eq, Disk.entryAt?_of_no_parent (hnames i) hup
      (hpart.trans (slotName_isPart path i)) hempty hdirectory]
    rfl

/-! ## Writing -/

theorem Shelf.appended (h : Shelf d here path home name keep) (number : Nat) (bytes : ByteArray) :
    Shelf (d.append number bytes) here path home name keep where
  sound := h.sound.of_directories rfl (Disk.size_append bytes)
  inside := h.inside
  leads := h.leads.sameWays (Disk.sameWays_of_directories rfl)
  short := h.short
  files := h.files
  alone := h.alone

theorem Shelf.append (h : Shelf d here path home name keep)
    (hlive : d.find? home name = some (.file number)) (bytes : ByteArray) :
    Shelf (d.append number bytes) here path home name keep ∧
      Untouched d (d.append number bytes) home name keep ∧
      stored (d.append number bytes) here path keep = stored d here path keep ++ bytes := by
  have hlt : number < d.contents.size := h.sound.files _ _ _ hlive
  have hshelf := h.appended number bytes
  -- a file under another name has another number
  have hheld (directory : Nat) (other : String) (hother : ¬(directory = home ∧ other = name)) :
      (d.append number bytes).held (d.find? directory other) =
        d.held (d.find? directory other) := by
    cases hentry : d.find? directory other with
    | none => rfl
    | some entry =>
        cases entry with
        | file otherNumber =>
            have hne : number ≠ otherNumber := by
              rintro rfl
              exact hother (h.alone 0 (Nat.zero_le _) number hlive directory other hentry)
            simp [Disk.held, Disk.bytesOf_append hlt, hne]
        | _ => rfl
  refine ⟨hshelf, ?_, ?_⟩
  · intro directory other houtside
    exact ⟨rfl, hheld directory other fun hsame => houtside 0 (Nat.zero_le _) hsame⟩
  · have hsame (directory : Nat) (other : String) :
        (d.append number bytes).find? directory other = d.find? directory other := rfl
    rw [hshelf.stored_eq, h.stored_eq]
    refine fromTop_append ?_ ?_
    · simp only [hsame, slotName, hlive, Disk.held, Disk.bytesOf_append hlt, if_true,
        Option.getD_some]
    · intro i hpos hi
      have hother : ¬(home = home ∧ slotName name i = name) := by
        rintro ⟨-, hname⟩
        have hzero : i = 0 := slotName_inj (j := 0) hname
        omega
      simp only [hsame, hheld home (slotName name i) hother]

/-! ## Moving up -/

/-- The entry at one place moves to the next one. -/
def moveUp (i : Nat) (row : Nat → Option Entry) : Nat → Option Entry :=
  fun j => if j = i + 1 then row i else if j = i then none else row j

/-- What a row of renamings makes of a row of files. -/
def shiftRow : Nat → (Nat → Option Entry) → Nat → Option Entry
  | 0, row => row
  | n + 1, row => shiftRow n (moveUp (n + 1) row)

theorem shiftRow_apply (n : Nat) (row : Nat → Option Entry) (i : Nat) :
    shiftRow n row i =
      if 2 ≤ i ∧ i ≤ n + 1 then row (i - 1) else if i = 1 ∧ 1 ≤ n then none else row i := by
  induction n generalizing row with
  | zero =>
      rw [shiftRow, if_neg (by omega), if_neg (by omega)]
  | succ n ih =>
      rw [shiftRow, ih]
      unfold moveUp
      split_ifs <;> first | rfl | omega | (congr 1; omega)

/-- The files of a log after some of them moved on a disk. -/
structure Filed (d : Disk) (home : Nat) (name : String) (keep : Nat)
    (row : Nat → Option Entry) (d' : Disk) : Prop where
  ways : Disk.SameWays d d'
  contents : d'.contents = d.contents
  size : d'.directories.size = d.directories.size
  slots : ∀ i ≤ keep, d'.find? home (slotName name i) = row i
  others : ∀ directory other, Outside home name keep directory other →
    d'.find? directory other = d.find? directory other

theorem Filed.refl (d : Disk) (home : Nat) (name : String) (keep : Nat) :
    Filed d home name keep (fun i => d.find? home (slotName name i)) d :=
  ⟨.refl d, rfl, rfl, fun _ _ => rfl, fun _ _ _ => rfl⟩

variable {row : Nat → Option Entry} {i : Nat}

theorem Filed.leads_slot (h : Filed d home name keep row d')
    (hshelf : Shelf d here path home name keep) (hi : i ≤ keep) :
    d'.Leads here (slotName path i) home (slotName name i) :=
  (hshelf.leads_slot hi).sameWays h.ways

/-- The file at the highest place goes. -/
theorem Filed.erase (h : Filed d home name keep row d') (hi : i ≤ keep)
    (hends : Disk.EndsWays (row i)) :
    Filed d home name keep (fun j => if j = i then none else row j)
      (d'.erase home (slotName name i)) := by
  refine ⟨h.ways.trans (Disk.sameWays_erase (h.slots i hi ▸ hends)), h.contents,
    Disk.size_erase.trans h.size, ?_, ?_⟩
  · intro j hj
    rw [Disk.find?_erase, h.slots j hj]
    by_cases hsame : j = i
    · rw [if_pos hsame, if_pos ⟨rfl, by rw [hsame]⟩]
    · rw [if_neg hsame, if_neg fun hname => hsame (slotName_inj hname.2).symm]
  · intro directory other houtside
    rw [Disk.find?_erase, if_neg, h.others directory other houtside]
    rintro ⟨rfl, rfl⟩
    exact houtside i hi ⟨rfl, rfl⟩

/-- A file moves up to a free place. -/
theorem Filed.move (h : Filed d home name keep row d') (hlt : home < d.directories.size)
    (hi : i + 1 ≤ keep) (hfile : row i = some (.file number)) (hfree : row (i + 1) = none) :
    Filed d home name keep (moveUp i row)
      (d'.move home (slotName name i) home (slotName name (i + 1)) (.file number)) := by
  have hends : Disk.EndsWays (row i) := hfile ▸ Disk.endsWays_file number
  have herased := h.erase (i := i) (by omega) hends
  have hfind (directory : Nat) (other : String) :
      (d'.move home (slotName name i) home (slotName name (i + 1)) (.file number)).find?
          directory other =
        if home = directory ∧ slotName name (i + 1) = other then some (.file number)
        else (d'.erase home (slotName name i)).find? directory other := by
    refine Disk.find?_put _ _ _ _ _ _ ?_
    rw [herased.size]
    exact hlt
  have hplace : Disk.EndsWays
      ((d'.erase home (slotName name i)).find? home (slotName name (i + 1))) := by
    rw [herased.slots (i + 1) hi, if_neg (by omega), hfree]
    exact Disk.endsWays_none
  refine ⟨herased.ways.trans (Disk.sameWays_put hplace ⟨nofun, nofun⟩), herased.contents,
    Disk.size_put.trans herased.size, ?_, ?_⟩
  · intro j hj
    rw [hfind, herased.slots j hj, moveUp]
    by_cases hsame : j = i + 1
    · rw [if_pos hsame, if_pos ⟨rfl, by rw [hsame]⟩, hfile]
    · rw [if_neg hsame, if_neg fun hname => hsame (slotName_inj hname.2).symm]
  · intro directory other houtside
    rw [hfind, if_neg, herased.others directory other houtside]
    rintro ⟨rfl, rfl⟩
    exact houtside (i + 1) hi ⟨rfl, rfl⟩

/-- A place that is free anyway moves up without a change. -/
theorem Filed.of_free (h : Filed d home name keep row d') (hfree : row i = none)
    (hfree' : row (i + 1) = none) : Filed d home name keep (moveUp i row) d' := by
  have hsame : moveUp i row = row := by
    funext j
    unfold moveUp
    split_ifs with hj hj'
    · rw [hj, hfree, hfree']
    · rw [hj', hfree]
    · rfl
  rw [hsame]
  exact h

/-- To rename a file of a log to a free place moves it there.  If there is no such file the
renaming fails, and nothing changes. -/
theorem Filed.rename (h : Filed d home name keep row d')
    (hshelf : Shelf d here path home name keep) (hi : i + 1 ≤ keep)
    (hfile : row i = none ∨ ∃ number, row i = some (.file number)) (hfree : row (i + 1) = none) :
    ∃ d'', Filed d home name keep (moveUp i row) d'' ∧
      (d'.rename here (slotName path i) (slotName path (i + 1)) = .ok d'' ∨
        d'' = d' ∧ ∃ fault,
          d'.rename here (slotName path i) (slotName path (i + 1)) = .error fault) := by
  have hsource := h.leads_slot hshelf (i := i) (by omega)
  have htarget := h.leads_slot hshelf hi
  have hrow := h.slots i (by omega)
  have hrow' := h.slots (i + 1) hi
  rcases hfile with hnone | ⟨number, hfile⟩
  · refine ⟨d', h.of_free hnone hfree, .inr ⟨rfl, .notFound, ?_⟩⟩
    exact Disk.rename_of_none hsource htarget (hrow.trans hnone)
  · refine ⟨_, h.move hshelf.home_lt hi hfile hfree, .inl ?_⟩
    have hother : ¬(home = home ∧ slotName name i = slotName name (i + 1)) := by
      rintro ⟨-, hname⟩
      have hsame := slotName_inj hname
      omega
    rw [Disk.rename_of_file hsource htarget (hrow.trans hfile) (hrow'.trans hfree), if_neg hother]

/-! ## A fresh file -/

/-- The disk after a fresh file took the free place of the one that is written.  Behind it are
files that were there before; `back` says which. -/
structure Renewed (d : Disk) (home : Nat) (name : String) (keep : Nat) (back : Nat → Nat)
    (d' : Disk) : Prop where
  back_le : ∀ i, back i ≤ i + 1
  back_inj : ∀ i j, back i = back j → i = j
  ways : Disk.SameWays d d'
  size : d'.directories.size = d.directories.size
  count : d'.contents.size = d.contents.size + 1
  bytes : ∀ number < d.contents.size, d'.bytesOf number = d.bytesOf number
  fresh : d'.bytesOf d.contents.size = .empty
  live : d'.find? home name = some (.file d.contents.size)
  slots : ∀ i, i + 1 ≤ keep →
    d'.find? home (slotName name (i + 1)) = d.find? home (slotName name (back i))
  others : ∀ directory other, Outside home name keep directory other →
    d'.find? directory other = d.find? directory other

variable {back : Nat → Nat}

theorem Filed.reopen (h : Filed d home name keep row d') (hlt : home < d.directories.size)
    (hle : ∀ i, back i ≤ i + 1) (hinj : ∀ i j, back i = back j → i = j) (hfirst : row 0 = none)
    (hrow : ∀ i, i + 1 ≤ keep → row (i + 1) = d.find? home (slotName name (back i))) :
    Renewed d home name keep back (d'.addFile home name .empty).1 := by
  have hcount : d'.contents.size = d.contents.size := by rw [h.contents]
  have hfind (directory : Nat) (other : String) :
      (d'.addFile home name .empty).1.find? directory other =
        if home = directory ∧ name = other then some (.file d'.contents.size)
        else d'.find? directory other := Disk.find?_addFile (h.size ▸ hlt) .empty directory other
  have hplace : Disk.EndsWays (d'.find? home name) := by
    have hfree : d'.find? home name = none := (h.slots 0 (Nat.zero_le _)).trans hfirst
    rw [hfree]
    exact Disk.endsWays_none
  have hput : Disk.SameWays d' (d'.put home name (.file d'.contents.size)) :=
    Disk.sameWays_put hplace ⟨nofun, nofun⟩
  refine ⟨hle, hinj, ?_, Disk.size_put.trans h.size, ?_, ?_, ?_, ?_, ?_, ?_⟩
  · exact h.ways.trans (hput.trans (Disk.sameWays_of_directories rfl))
  · rw [← hcount]
    exact Array.size_push _
  · intro number hnumber
    rw [Disk.bytesOf_addFile, if_neg (by omega), Disk.bytesOf, h.contents, Disk.bytesOf]
  · rw [Disk.bytesOf_addFile, if_pos hcount.symm]
  · rw [hfind, if_pos ⟨rfl, rfl⟩, hcount]
  · intro i hi
    have hother : ¬(home = home ∧ name = slotName name (i + 1)) := by
      rintro ⟨-, hname⟩
      exact absurd hname.symm (Path.rotatedName_ne name (i + 1))
    rw [hfind, if_neg hother, h.slots (i + 1) hi, hrow i hi]
  · intro directory other houtside
    rw [hfind, if_neg, h.others directory other houtside]
    rintro ⟨rfl, rfl⟩
    exact houtside 0 (Nat.zero_le _) ⟨rfl, rfl⟩

/-- Where an entry comes from: it is the fresh file, or it was there before. -/
theorem Renewed.origin (h : Renewed d home name keep back d') {directory : Nat} {other : String}
    {entry : Entry} (hentry : d'.find? directory other = some entry) :
    (directory = home ∧ other = name ∧ entry = .file d.contents.size) ∨
      (∃ i, i + 1 ≤ keep ∧ directory = home ∧ other = slotName name (i + 1) ∧
        d.find? home (slotName name (back i)) = some entry) ∨
      (Outside home name keep directory other ∧ d.find? directory other = some entry) := by
  by_cases hinside : ∃ i ≤ keep, directory = home ∧ other = slotName name i
  · obtain ⟨i, hi, rfl, rfl⟩ := hinside
    cases i with
    | zero =>
        rw [slotName, h.live] at hentry
        exact .inl ⟨rfl, rfl, (Option.some.inj hentry).symm⟩
    | succ i => exact .inr (.inl ⟨i, hi, rfl, rfl, (h.slots i hi).symm.trans hentry⟩)
  · have houtside : Outside home name keep directory other :=
      fun i hi hsame => hinside ⟨i, hi, hsame⟩
    exact .inr (.inr ⟨houtside, (h.others directory other houtside).symm.trans hentry⟩)

/-- No entry of before holds anything else now. -/
theorem Renewed.held (h : Renewed d home name keep back d') (hsound : d.Sound) (directory : Nat)
    (other : String) : d'.held (d.find? directory other) = d.held (d.find? directory other) := by
  cases hentry : d.find? directory other with
  | none => rfl
  | some entry =>
      cases entry with
      | file number => simp only [Disk.held, h.bytes number (hsound.files _ _ _ hentry)]
      | _ => rfl

/-- A file that had one name only has one name only. -/
theorem Renewed.alone (h : Renewed d home name keep back d')
    (hshelf : Shelf d here path home name keep) {directory directory' number : Nat}
    {other other' : String}
    (halone : d.find? directory other = some (.file number) → ∀ directory' other',
      d.find? directory' other' = some (.file number) → directory' = directory ∧ other' = other)
    (hfile : d'.find? directory other = some (.file number))
    (hfile' : d'.find? directory' other' = some (.file number)) :
    directory' = directory ∧ other' = other := by
  have hold {directory : Nat} {other : String}
      (hentry : d.find? directory other = some (.file d.contents.size)) : False :=
    absurd (hshelf.sound.files _ _ _ hentry) (Nat.lt_irrefl _)
  have hback {i : Nat} (hi : i + 1 ≤ keep) : back i ≤ keep := Nat.le_trans (h.back_le i) hi
  rcases h.origin hfile with ⟨rfl, rfl, hfresh⟩ | ⟨i, hi, rfl, rfl, hbefore⟩ | ⟨hout, hbefore⟩
  · -- the number of the new file is larger than those of all files before
    cases hfresh
    rcases h.origin hfile' with ⟨rfl, rfl, -⟩ | ⟨j, -, -, -, hbefore⟩ | ⟨-, hbefore⟩
    · exact ⟨rfl, rfl⟩
    · exact (hold hbefore).elim
    · exact (hold hbefore).elim
  · -- a file that was put aside had one place before
    have hone := hshelf.alone _ (hback hi) number hbefore
    rcases h.origin hfile' with ⟨-, -, hfresh⟩ | ⟨j, -, rfl, rfl, hbefore'⟩ | ⟨hout, hbefore'⟩
    · cases hfresh
      exact (hold hbefore).elim
    · obtain ⟨-, hname⟩ := hone _ _ hbefore'
      obtain rfl : j = i := h.back_inj _ _ (slotName_inj hname)
      exact ⟨rfl, rfl⟩
    · exact absurd (hone _ _ hbefore') (hout _ (hback hi))
  · rcases h.origin hfile' with ⟨-, -, hfresh⟩ | ⟨j, hj, rfl, rfl, hbefore'⟩ | ⟨-, hbefore'⟩
    · cases hfresh
      exact (hold hbefore).elim
    · obtain ⟨rfl, rfl⟩ := halone hbefore _ _ hbefore'
      exact absurd ⟨rfl, rfl⟩ (hout _ (hback hj))
    · exact halone hbefore _ _ hbefore'

/-- The files of any log on the disk can still be told apart. -/
theorem Renewed.shelf_of (h : Renewed d home name keep back d')
    (hshelf : Shelf d here path home name keep) {here' home' keep' : Nat} {path' name' : String}
    (hother : Shelf d here' path' home' name' keep') : Shelf d' here' path' home' name' keep' := by
  refine ⟨?_, h.size ▸ hother.inside, hother.leads.sameWays h.ways, hother.short, ?_, ?_⟩
  · refine hshelf.sound.of_find? h.ways.parent h.size (by rw [h.count]; omega) ?_
    intro directory other entry hentry
    rcases h.origin hentry with ⟨-, -, hfresh⟩ | ⟨i, -, -, -, hbefore⟩ | ⟨-, hbefore⟩
    · exact .inr ⟨_, hfresh, by rw [h.count]; omega⟩
    · exact .inl ⟨_, _, hbefore⟩
    · exact .inl ⟨_, _, hbefore⟩
  · intro i hi
    cases hentry : d'.find? home' (slotName name' i) with
    | none => exact .inl rfl
    | some entry =>
        rcases h.origin hentry with ⟨-, -, hfresh⟩ | ⟨j, hj, -, -, hbefore⟩ | ⟨-, hbefore⟩
        · exact .inr ⟨_, congrArg some hfresh⟩
        · exact hbefore ▸ hshelf.files _ (Nat.le_trans (h.back_le j) hj)
        · exact hbefore ▸ hother.files i hi
  · intro i hi number hfile directory other hfile'
    exact h.alone hshelf (hother.alone i hi number) hfile hfile'

theorem Renewed.shelf (h : Renewed d home name keep back d')
    (hshelf : Shelf d here path home name keep) : Shelf d' here path home name keep :=
  h.shelf_of hshelf hshelf

/-- Where a file was created, nothing else changed. -/
theorem Renewed.find?_of_ne (h : Renewed d home name keep Nat.succ d') {directory : Nat}
    {other : String} (hne : ¬(directory = home ∧ other = name)) :
    d'.find? directory other = d.find? directory other := by
  by_cases hinside : ∃ i ≤ keep, directory = home ∧ other = slotName name i
  · obtain ⟨i, hi, rfl, rfl⟩ := hinside
    cases i with
    | zero => exact absurd ⟨rfl, rfl⟩ hne
    | succ i => exact h.slots i hi
  · exact h.others directory other fun i hi hsame => hinside ⟨i, hi, hsame⟩

theorem Renewed.untouched (h : Renewed d home name keep back d') (hsound : d.Sound) :
    Untouched d d' home name keep :=
  fun directory other houtside => ⟨h.others directory other houtside, h.held hsound directory other⟩

theorem Renewed.held_slot (h : Renewed d home name keep back d') (hsound : d.Sound) {i : Nat}
    (hi : i + 1 ≤ keep) : d'.held (d'.find? home (slotName name (i + 1))) =
      d.held (d.find? home (slotName name (back i))) := by
  rw [h.slots i hi, h.held hsound]

theorem Renewed.held_live (h : Renewed d home name keep back d') :
    (d'.held (d'.find? home (slotName name 0))).getD .empty = .empty := by
  rw [slotName, h.live, Disk.held, h.fresh]
  rfl

/-- To create the file that is written adds no bytes. -/
theorem Renewed.stored_eq (h : Renewed d home name keep Nat.succ d')
    (hshelf : Shelf d here path home name keep) (hfree : d.find? home name = none) :
    stored d' here path keep = stored d here path keep := by
  rw [(h.shelf hshelf).stored_eq, hshelf.stored_eq]
  refine fromTop_congr ?_
  intro i hi
  cases i with
  | zero =>
      rw [h.held_live, slotName, hfree]
      rfl
  | succ i => rw [h.held_slot hshelf.sound hi]

/-- What is lost in a rotation is the file with the highest number. -/
theorem Renewed.stored_of_raised (h : Renewed d home name keep id d')
    (hshelf : Shelf d here path home name keep) (hkeep : 1 ≤ keep) :
    stored d here path keep =
      (d.content here (slotName path keep)).getD .empty ++ stored d' here path keep := by
  obtain ⟨n, rfl⟩ : ∃ n, keep = n + 1 := ⟨keep - 1, by omega⟩
  have hraised : ∀ i ≤ n, (d'.held (d'.find? home (slotName name (i + 1)))).getD .empty =
      (d.held (d.find? home (slotName name i))).getD .empty := by
    intro i hi
    rw [h.held_slot hshelf.sound (by omega), id]
  rw [(h.shelf hshelf).stored_eq, fromTop_raise hraised, h.held_live, ByteArray.append_empty,
    hshelf.stored_eq, fromTop, hshelf.content_slot (Nat.le_refl _)]

end LogWriter

end Backlog
