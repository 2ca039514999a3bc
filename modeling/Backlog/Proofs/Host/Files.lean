import Backlog.Proofs.Host.Ways

/-!
# Files on a disk

What is read at a path is what the entry holds that the path leads to (`content_eq`).  Names and
numbers keep this apart: an operation changes what some names stand for, or what some numbers
hold.  On a disk whose numbers are all in use (`Sound`) both kinds of changes are seen exactly
where they were made, and since files stand in nobody's way, all other paths read the same
(`content_sameWays`).
-/

namespace Backlog

namespace Disk

/-- All numbers on a disk are those of its directories and files. -/
structure Sound (d : Disk) : Prop where
  parents : ∀ number, (d.directoryAt number).parent < d.directories.size
  directories : ∀ directory name number, d.find? directory name = some (.directory number) →
    number < d.directories.size
  files : ∀ directory name number, d.find? directory name = some (.file number) →
    number < d.contents.size

variable {d d' : Disk} {here directory number : Nat} {path name : String} {entry : Entry}

/-! ## What is read -/

/-- What a file holds, if it is one that an entry stands for. -/
def held (d : Disk) : Option Entry → Option ByteArray
  | some (.file number) => some (d.bytesOf number)
  | some (.device _) => some .empty
  | _ => none

/-- What can be read at a path. -/
def content (d : Disk) (here : Nat) (path : String) : Option ByteArray :=
  (d.read here path).toOption

theorem content_eq (d : Disk) (here : Nat) (path : String) :
    d.content here path = d.held (d.entryAt? here path) := by
  unfold content read entryAt?
  cases d.locate .target here path with
  | error fault => rfl
  | ok place =>
      dsimp only
      cases place.entry with
      | none => rfl
      | some entry => cases entry <;> rfl

theorem content_sameWays (h : SameWays d d')
    (hheld : ∀ place, d.locate .target here path = .ok place →
      d'.held (place.on d').entry = d.held place.entry) :
    d'.content here path = d.content here path := by
  rw [content_eq, content_eq]
  rcases entryAt?_sameWays h here path with ⟨hbefore, hafter⟩ | ⟨place, hbefore, hafter⟩
  · rw [hbefore, hafter]
    rfl
  · unfold entryAt?
    rw [hbefore, hafter]
    exact hheld place hbefore

theorem content_of_locate {entry : Option Entry}
    (h : d.locate .name here path = .ok (.name directory name entry false))
    (hlink : ∀ target, entry ≠ some (.link target)) : d.content here path = d.held entry := by
  have hends : ¬EndsAtLink (d.locate .name here path) := by
    rintro ⟨_, _, target, _, hplace⟩
    rw [h] at hplace
    cases hplace
    exact hlink target rfl
  rw [content_eq, entryAt?, locate_target hends, h, settle_unmarked]
  rfl

/-! ## Names -/

theorem directoryAt_of_le (h : d.directories.size ≤ directory) :
    d.directoryAt directory = ⟨root, .empty⟩ := by
  simp [directoryAt, Array.getD_eq_getD_getElem?, h]

theorem find?_eq_none_of_le (h : d.directories.size ≤ directory) (name : String) :
    d.find? directory name = none := by
  rw [find?, directoryAt_of_le h]
  rfl

theorem size_put : (d.put directory name entry).directories.size = d.directories.size :=
  Array.size_modify

theorem size_erase : (d.erase directory name).directories.size = d.directories.size :=
  Array.size_modify

theorem put_of_le (h : d.directories.size ≤ directory) : d.put directory name entry = d := by
  have hsame : (d.put directory name entry).directories = d.directories := by
    refine Array.ext size_put ?_
    intro i hi hi'
    have hne : directory ≠ i := by omega
    exact (Array.getElem_modify _).trans (if_neg hne)
  obtain ⟨directories, contents⟩ := d
  exact congrArg (fun directories => Disk.mk directories contents) hsame

theorem parent_put (number : Nat) :
    ((d.put directory name entry).directoryAt number).parent = (d.directoryAt number).parent := by
  by_cases hlt : directory < d.directories.size
  · unfold put
    rw [directoryAt_modify d _ directory number hlt]
    split <;> rfl
  · rw [put_of_le (Nat.le_of_not_lt hlt)]

theorem sameWays_put (hbefore : EndsWays (d.find? directory name)) (hleaf : entry.IsLeaf) :
    SameWays d (d.put directory name entry) := by
  by_cases hlt : directory < d.directories.size
  · refine ⟨parent_put, ?_⟩
    intro other otherName
    rw [find?_put d directory name entry other otherName hlt]
    split_ifs with hsame
    · obtain ⟨rfl, rfl⟩ := hsame
      refine .inr ⟨hbefore, ?_⟩
      rintro e ⟨⟩
      exact hleaf
    · exact .inl rfl
  · rw [put_of_le (Nat.le_of_not_lt hlt)]
    exact .refl d

theorem sameWays_erase (hbefore : EndsWays (d.find? directory name)) :
    SameWays d (d.erase directory name) := by
  refine ⟨parent_erase d directory name, ?_⟩
  intro other otherName
  rw [find?_erase]
  split_ifs with hsame
  · obtain ⟨rfl, rfl⟩ := hsame
    exact .inr ⟨hbefore, nofun⟩
  · exact .inl rfl

/-- What files hold is in nobody's way. -/
theorem sameWays_of_directories (h : d'.directories = d.directories) : SameWays d d' := by
  refine ⟨fun number => ?_, fun other otherName => .inl ?_⟩
  · rw [directoryAt, h, directoryAt]
  · rw [find?, directoryAt, h, find?, directoryAt]

/-! ## Numbers -/

theorem bytesOf_setBytes (hlt : number < d.contents.size) (bytes : ByteArray) (other : Nat) :
    (d.setBytes number bytes).bytesOf other =
      if number = other then bytes else d.bytesOf other := by
  unfold setBytes bytesOf
  by_cases hsame : number = other
  · subst hsame
    simp [Array.getD_eq_getD_getElem?, hlt]
  · simp [Array.getD_eq_getD_getElem?, hsame]

theorem bytesOf_append (hlt : number < d.contents.size) (bytes : ByteArray) (other : Nat) :
    (d.append number bytes).bytesOf other =
      if number = other then d.bytesOf other ++ bytes else d.bytesOf other := by
  unfold append bytesOf
  by_cases hsame : number = other
  · subst hsame
    simp [Array.getD_eq_getD_getElem?, Array.getElem_modify, hlt]
  · simp [Array.getD_eq_getD_getElem?, Array.getElem?_modify, hsame]

theorem append_empty (d : Disk) (number : Nat) : d.append number .empty = d := by
  have hsame : d.contents.modify number (· ++ .empty) = d.contents := by
    refine Array.ext Array.size_modify fun i _ _ => ?_
    rw [Array.getElem_modify]
    split
    · exact ByteArray.append_empty
    · rfl
  rw [append, hsame]

theorem append_append (d : Disk) (number : Nat) (bytes more : ByteArray) :
    (d.append number bytes).append number more = d.append number (bytes ++ more) := by
  have hsame : (d.contents.modify number (· ++ bytes)).modify number (· ++ more) =
      d.contents.modify number (· ++ (bytes ++ more)) := by
    refine Array.ext (by simp) fun i _ _ => ?_
    simp only [Array.getElem_modify]
    split
    · exact ByteArray.append_assoc
    · rfl
  rw [append, append, append, hsame]

theorem bytesOf_addFile (bytes : ByteArray) (other : Nat) :
    (d.addFile directory name bytes).1.bytesOf other =
      if other = d.contents.size then bytes else d.bytesOf other := by
  unfold addFile bytesOf
  by_cases hsame : other = d.contents.size
  · simp [Array.getD_eq_getD_getElem?, hsame]
  · simp [Array.getD_eq_getD_getElem?, Array.getElem?_push, hsame]

theorem size_setBytes (bytes : ByteArray) :
    (d.setBytes number bytes).contents.size = d.contents.size :=
  Array.size_setIfInBounds

theorem size_append (bytes : ByteArray) :
    (d.append number bytes).contents.size = d.contents.size :=
  Array.size_modify

theorem find?_addFile (hlt : directory < d.directories.size) (bytes : ByteArray) (other : Nat)
    (otherName : String) :
    (d.addFile directory name bytes).1.find? other otherName =
      if directory = other ∧ name = otherName then some (.file d.contents.size)
      else d.find? other otherName :=
  find?_put d directory name _ other otherName hlt

/-! ## Sound disks -/

theorem start_lt (hlt : here < d.directories.size) (path : String) :
    start here path < d.directories.size := by
  have hroot : root < d.directories.size := Nat.lt_of_le_of_lt (Nat.zero_le _) hlt
  unfold start
  split_ifs
  · exact hroot
  · exact hlt

theorem Sound.waySteps_lt {links links' there : Nat} {steps : List String}
    {follow : Nat → List String → Option (Nat × Nat)} (h : Sound d)
    (hlt : here < d.directories.size)
    (hfollow : ∀ here steps there links', here < d.directories.size →
      follow here steps = some (there, links') → there < d.directories.size)
    (hway : d.waySteps links follow here steps = some (there, links')) :
    there < d.directories.size := by
  induction steps generalizing here with
  | nil =>
      cases hway
      exact hlt
  | cons step rest ih =>
      rw [waySteps] at hway
      split_ifs at hway with hdot hdots hlong
      · exact ih hlt hway
      · exact ih (h.parents here) hway
      · cases hfound : d.find? here step with
        | none =>
            rw [hfound] at hway
            cases hway
        | some entry =>
            rw [hfound] at hway
            cases entry with
            | directory number => exact ih (h.directories _ _ _ hfound) hway
            | link target => exact hfollow _ _ _ _ (start_lt hlt target) hway
            | file number => cases hway
            | device isFull => cases hway

theorem Sound.way_lt {links links' there : Nat} {steps : List String} (h : Sound d)
    (hlt : here < d.directories.size) (hway : d.way links here steps = some (there, links')) :
    there < d.directories.size := by
  induction links generalizing here steps there links' with
  | zero => exact h.waySteps_lt hlt (fun _ _ _ _ _ h => by cases h) hway
  | succ links ih => exact h.waySteps_lt hlt (fun _ _ _ _ hlt h => ih hlt h) hway

/-- A path leads to a name in a directory that is there. -/
theorem Sound.lt_of_locate {entry : Option Entry} {isMarked : Bool} (h : Sound d)
    (hlt : here < d.directories.size)
    (hplace : d.locate .name here path = .ok (.name directory name entry isMarked)) :
    directory < d.directories.size := by
  obtain ⟨front, links, -, -, -, -, hway, -, -⟩ := way_of_locate hplace
  exact h.way_lt (start_lt hlt path) hway

theorem Sound.of_find? (h : Sound d)
    (hparents : ∀ number, (d'.directoryAt number).parent = (d.directoryAt number).parent)
    (hdirectories : d'.directories.size = d.directories.size)
    (hcontents : d.contents.size ≤ d'.contents.size)
    (hfind : ∀ directory name entry, d'.find? directory name = some entry →
      (∃ other otherName, d.find? other otherName = some entry) ∨
        ∃ number, entry = .file number ∧ number < d'.contents.size) : Sound d' := by
  refine ⟨?_, ?_, ?_⟩
  · intro number
    rw [hparents, hdirectories]
    exact h.parents number
  · intro directory name number hentry
    rcases hfind _ _ _ hentry with ⟨_, _, hbefore⟩ | ⟨_, hfile, -⟩
    · rw [hdirectories]
      exact h.directories _ _ _ hbefore
    · cases hfile
  · intro directory name number hentry
    rcases hfind _ _ _ hentry with ⟨_, _, hbefore⟩ | ⟨_, hfile, hlt⟩
    · exact Nat.lt_of_lt_of_le (h.files _ _ _ hbefore) hcontents
    · cases hfile
      exact hlt

theorem Sound.erase (h : Sound d) (directory : Nat) (name : String) :
    Sound (d.erase directory name) := by
  refine h.of_find? (parent_erase d directory name) size_erase (Nat.le_refl _) ?_
  intro other otherName entry hentry
  rw [find?_erase] at hentry
  split_ifs at hentry
  exact .inl ⟨other, otherName, hentry⟩

theorem Sound.addFile (h : Sound d) (directory : Nat) (name : String) (bytes : ByteArray) :
    Sound (d.addFile directory name bytes).1 := by
  have hsize : (d.addFile directory name bytes).1.contents.size = d.contents.size + 1 :=
    Array.size_push _
  refine h.of_find? parent_put size_put (by omega) ?_
  intro other otherName e he
  by_cases hlt : directory < d.directories.size
  · rw [find?_addFile hlt] at he
    split_ifs at he
    · cases he
      exact .inr ⟨d.contents.size, rfl, by omega⟩
    · exact .inl ⟨other, otherName, he⟩
  · unfold Disk.addFile at he
    rw [put_of_le (Nat.le_of_not_lt hlt)] at he
    exact .inl ⟨other, otherName, he⟩

theorem Sound.of_directories (h : Sound d) (hdirectories : d'.directories = d.directories)
    (hcontents : d'.contents.size = d.contents.size) : Sound d' := by
  have hways := sameWays_of_directories hdirectories
  refine h.of_find? hways.parent (by rw [hdirectories]) (Nat.le_of_eq hcontents.symm) ?_
  intro other otherName e he
  refine .inl ⟨other, otherName, ?_⟩
  rwa [find?, directoryAt, hdirectories] at he

theorem directoryAt_empty (number : Nat) : empty.directoryAt number = ⟨root, .empty⟩ := by
  cases number with
  | zero => rfl
  | succ number => exact directoryAt_of_le (Nat.le_add_left 1 number)

theorem find?_empty (directory : Nat) (name : String) : empty.find? directory name = none := by
  rw [find?, directoryAt_empty]
  rfl

theorem sound_empty : Sound empty := by
  refine ⟨?_, ?_, ?_⟩
  · intro number
    rw [directoryAt_empty]
    exact Nat.zero_lt_one
  · intro directory name number h
    rw [find?_empty] at h
    cases h
  · intro directory name number h
    rw [find?_empty] at h
    cases h

/-- A disk with one file in the root. -/
def ofFile (name : String) (bytes : ByteArray) : Disk := (empty.addFile root name bytes).1

theorem sound_ofFile (name : String) (bytes : ByteArray) : Sound (ofFile name bytes) :=
  sound_empty.addFile root name bytes

theorem find?_ofFile (name : String) (bytes : ByteArray) (directory : Nat) (other : String) :
    (ofFile name bytes).find? directory other =
      if root = directory ∧ name = other then some (.file 0) else none := by
  rw [← find?_empty directory other]
  exact find?_addFile Nat.zero_lt_one _ _ _

end Disk

end Backlog
