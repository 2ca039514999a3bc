import Backlog.Proofs.Host.Files

/-!
# The directories that a file lies in

Before a file is opened the directories for it are created.  If its parent is a directory already,
this changes nothing (`createDirs_of_isDirectory`), and at no path it changes anything that is there
(`grown_createDirs`).
-/

namespace Backlog

namespace Disk

variable {d d' : Disk} {here home : Nat} {path up name other : String} {front : List String}

theorem legal_of_part (h : Legal path) (hpart : up.toList <+: path.toList) (hne : up ≠ "") :
    Legal up := by
  obtain ⟨rest, hrest⟩ := hpart
  have hwhole : path = up ++ String.ofList rest := by
    rw [← String.toList_inj, String.toList_append, String.toList_ofList, hrest]
  refine ⟨?_, hne, ?_⟩
  · have hnul : '\x00' ∉ path.toList := by simpa using h.nul
    rw [← Bool.not_eq_true, List.contains_iff_mem]
    intro hmem
    exact hnul (hrest ▸ List.mem_append_left _ hmem)
  · have hshort := h.short
    rw [hwhole, String.utf8ByteSize_append] at hshort
    omega

theorem start_of_part (hpart : up.toList <+: path.toList) (hne : up ≠ "") :
    start here up = start here path := by
  obtain ⟨rest, hrest⟩ := hpart
  obtain ⟨c, cs, hcons⟩ := List.exists_cons_of_ne_nil (l := up.toList) (by simpa using hne)
  have hsame : Path.isAbsolute up = Path.isAbsolute path := by
    rw [Path.isAbsolute, Path.isAbsolute, ← hrest, hcons]
    rfl
  rw [start, start, hsame]

/-- The parent of a path is a directory exactly if there is a way to what the path names. -/
theorem isDirectory_parent_iff (hlegal : Legal path) (hpart : up.toList <+: path.toList)
    (hne : up ≠ "") (hnames : Path.names up = front) :
    d.isDirectory here up = true ↔
      ∃ there links, d.way maxLinks (start here path) front = some (there, links) := by
  rw [isDirectory_iff (legal_of_part hlegal hpart hne), hnames, start_of_part hpart hne]

theorem createDir_of_isDirectory (h : d.isDirectory here path = true) :
    d.createDir here path = .error .alreadyExists := by
  obtain ⟨number, hentry⟩ := isDirectory_eq_true.1 h
  unfold entryAt? at hentry
  unfold createDir
  cases hplace : d.locate .name here path with
  | error fault =>
      rw [locate_target (by rw [hplace]; rintro ⟨_, _, _, _, hlink⟩; cases hlink), hplace] at hentry
      cases hentry
  | ok place =>
      cases place with
      | directory number => rfl
      | name directory name entry isMarked =>
          cases entry with
          | some entry => rfl
          | none =>
              rw [locate_target (by rw [hplace]; rintro ⟨_, _, _, _, hlink⟩; cases hlink), hplace,
                settle_none] at hentry
              cases hentry

theorem createDirs_of_isDirectory (h : d.isDirectory here path = true) :
    d.createDirs here path = (.ok (), d) := by
  unfold createDirs createRow
  have hother : IoFault.alreadyExists ≠ .notFound := by decide
  rw [createDir_of_isDirectory h]
  simp [h, hother]

theorem createDirs_empty (d : Disk) (here : Nat) : d.createDirs here "" = (.ok (), d) := rfl

/-! ## What the names of a path lead to -/

section

variable {there links : Nat} {rest : List String}

/-- The steps of a path, split where its names are split.  Dots may stand between them. -/
theorem exists_steps_of_names (h : Path.names path = front ++ name :: rest) :
    ∃ before after, Path.steps path = before ++ name :: after ∧ name ≠ "." ∧
      (before.filter fun step => step ≠ ".") = front ∧
      (after.filter fun step => step ≠ ".") = rest := by
  rw [Path.names_eq_filter_steps] at h
  obtain ⟨before, after, hsteps, hbefore, hafter⟩ := List.filter_eq_append_iff.1 h
  obtain ⟨dots, after', rfl, hdots, hname, hrest⟩ := List.filter_eq_cons_iff.1 hafter
  refine ⟨before ++ dots, after', by rw [hsteps, List.append_assoc], by simpa using hname, ?_,
    hrest⟩
  rw [List.filter_append, hbefore, List.filter_eq_nil_iff.2 hdots, List.append_nil]

/-- A path leads to its last name in the directory that its other names lead to. -/
theorem place_of_names {entry : Option Entry} {isMarked : Bool}
    (hnames : Path.names path = front ++ [name])
    (hway : d.way maxLinks (start here path) front = some (there, links))
    (h : d.locate .name here path = .ok (.name home other entry isMarked)) :
    home = there ∧ other = name := by
  obtain ⟨before, links', hsteps, hdot, -, -, hbefore, -, -⟩ := way_of_locate h
  have hlast : Path.names path = (before.filter fun step => step ≠ ".") ++ [other] := by
    rw [Path.names_eq_filter_steps, hsteps, List.filter_append]
    simp [hdot]
  obtain ⟨hfront, hother⟩ := List.append_inj' (hlast.symm.trans hnames) rfl
  rw [← hfront, way_filter, hbefore] at hway
  cases hway
  exact ⟨rfl, (List.cons.inj hother).1⟩

/-- A path of which a name is missing leads at most to the place for this name. -/
theorem place_of_missing {place : Place} (hnames : Path.names path = front ++ name :: rest)
    (hup : name ≠ "..") (hway : d.way maxLinks (start here path) front = some (there, links))
    (hmissing : d.find? there name = none) (h : d.locate .target here path = .ok place) :
    ∃ isMarked, place = .name there name none isMarked := by
  obtain ⟨before, after, hsteps, hdot, hbefore, -⟩ := exists_steps_of_names hnames
  rw [locate_of_legal (legal_of_locate h), hsteps] at h
  rw [← hbefore, way_filter] at hway
  have hlast (follow) : d.walkSteps .target follow there (Path.endsInSlash path) (name :: after) =
      .ok place → ∃ isMarked, place = .name there name none isMarked := by
    intro hwalk
    rw [walkSteps_cons (by decide), if_neg hdot, if_neg hup, hmissing] at hwalk
    split_ifs at hwalk
    cases after with
    | nil =>
        cases hwalk
        exact ⟨_, rfl⟩
    | cons _ _ => cases hwalk
  have hwalk := settle_eq_ok h
  rw [walk_of_way (by simp) hway] at hwalk
  cases links with
  | zero => exact hlast _ hwalk
  | succ links => exact hlast _ hwalk

theorem entryAt?_of_missing (hnames : Path.names path = front ++ name :: rest) (hup : name ≠ "..")
    (hway : d.way maxLinks (start here path) front = some (there, links))
    (hmissing : d.find? there name = none) : d.entryAt? here path = none := by
  unfold entryAt?
  cases hplace : d.locate .target here path with
  | error fault => rfl
  | ok place =>
      obtain ⟨isMarked, rfl⟩ := place_of_missing hnames hup hway hmissing hplace
      rfl

/-- A path with names on which there is no way leads nowhere. -/
theorem entryAt?_of_no_way (hnames : Path.names path = front ++ name :: rest)
    (hway : d.way maxLinks (start here path) front = none) : d.entryAt? here path = none := by
  unfold entryAt?
  cases hplace : d.locate .target here path with
  | error fault => rfl
  | ok place =>
      obtain ⟨before, after, hsteps, -, hbefore, -⟩ := exists_steps_of_names hnames
      rw [locate_of_legal (legal_of_locate hplace), hsteps] at hplace
      obtain ⟨there, links, hfound⟩ := way_of_walk (by simp) (settle_eq_ok hplace)
      rw [← hbefore, way_filter, hfound] at hway
      cases hway

end

/-! ## New directories -/

section

variable {directory number links : Nat} {steps rest : List String} {found : Nat × Nat}

theorem size_addDirectory :
    (d.addDirectory directory name).directories.size = d.directories.size + 1 := by
  have hput : (d.put directory name (.directory d.directories.size)).directories.size =
      d.directories.size := size_put
  rw [← hput]
  exact Array.size_push _

theorem directoryAt_addDirectory (number : Nat) :
    (d.addDirectory directory name).directoryAt number =
      if number = d.directories.size then ⟨directory, .empty⟩
      else (d.put directory name (.directory d.directories.size)).directoryAt number := by
  have hsize : (d.put directory name (.directory d.directories.size)).directories.size =
      d.directories.size := size_put
  unfold addDirectory directoryAt
  simp only [Array.getD_eq_getD_getElem?, Array.getElem?_push, hsize]
  split_ifs <;> rfl

theorem parent_addDirectory (hlt : number < d.directories.size) :
    ((d.addDirectory directory name).directoryAt number).parent =
      (d.directoryAt number).parent := by
  rw [directoryAt_addDirectory, if_neg (by omega), parent_put]

theorem find?_addDirectory (hlt : directory < d.directories.size) (other : Nat)
    (otherName : String) :
    (d.addDirectory directory name).find? other otherName =
      if directory = other ∧ name = otherName then some (.directory d.directories.size)
      else d.find? other otherName := by
  by_cases hnew : other = d.directories.size
  · have hother : ¬(directory = other ∧ name = otherName) := fun h => by omega
    rw [if_neg hother, find?, directoryAt_addDirectory, if_pos hnew,
      find?_eq_none_of_le (Nat.le_of_eq hnew.symm)]
    rfl
  · rw [find?, directoryAt_addDirectory, if_neg hnew, ← find?, find?_put _ _ _ _ _ _ hlt]

theorem Sound.addDirectory (h : Sound d) (hlt : directory < d.directories.size) (name : String) :
    Sound (d.addDirectory directory name) := by
  refine ⟨?_, ?_, ?_⟩
  · intro number
    rw [size_addDirectory, directoryAt_addDirectory]
    split_ifs
    · exact Nat.lt_succ_of_lt hlt
    · rw [parent_put]
      exact Nat.lt_succ_of_lt (h.parents number)
  · intro other otherName number hentry
    rw [find?_addDirectory hlt] at hentry
    rw [size_addDirectory]
    split_ifs at hentry
    · cases hentry
      exact Nat.lt_succ_self _
    · exact Nat.lt_succ_of_lt (h.directories _ _ _ hentry)
  · intro other otherName number hentry
    rw [find?_addDirectory hlt] at hentry
    split_ifs at hentry
    · cases hentry
    · exact h.files _ _ _ hentry

theorem waySteps_addDirectory (hsound : Sound d) (hlt : directory < d.directories.size)
    (hfree : d.find? directory name = none) {follow follow' : Nat → List String →
      Option (Nat × Nat)} (hhere : here < d.directories.size)
    (hfollow : ∀ here steps found, here < d.directories.size →
      follow here steps = some found → follow' here steps = some found)
    (h : d.waySteps links follow here steps = some found) :
    (d.addDirectory directory name).waySteps links follow' here steps = some found := by
  induction steps generalizing here with
  | nil => exact h
  | cons step rest ih =>
      rw [waySteps] at h ⊢
      split_ifs at h ⊢ with hdot hdots hlong
      · exact ih hhere h
      · rw [parent_addDirectory hhere]
        exact ih (hsound.parents here) h
      · cases hfound : d.find? here step with
        | none =>
            rw [hfound] at h
            cases h
        | some entry =>
            -- the way goes on from a name that was taken before
            have hsame : (d.addDirectory directory name).find? here step = some entry := by
              rw [find?_addDirectory hlt, if_neg, hfound]
              rintro ⟨rfl, rfl⟩
              cases hfree.symm.trans hfound
            rw [hfound] at h
            rw [hsame]
            cases entry with
            | directory number => exact ih (hsound.directories _ _ _ hfound) h
            | link target =>
                refine hfollow _ _ _ ?_ h
                split_ifs
                · exact Nat.lt_of_le_of_lt (Nat.zero_le _) hhere
                · exact hhere
            | file number => cases h
            | device isFull => cases h

/-- A new directory is in nobody's way. -/
theorem way_addDirectory (hsound : Sound d) (hlt : directory < d.directories.size)
    (hfree : d.find? directory name = none) (hhere : here < d.directories.size)
    (h : d.way links here steps = some found) :
    (d.addDirectory directory name).way links here steps = some found := by
  induction links generalizing here steps found with
  | zero => exact waySteps_addDirectory hsound hlt hfree hhere (fun _ _ _ _ h => by cases h) h
  | succ links ih =>
      exact waySteps_addDirectory hsound hlt hfree hhere (fun _ _ _ hhere h => ih hhere h) h

theorem waySteps_append {follow : Nat → List String → Option (Nat × Nat)}
    (hhere : ∀ here, d.waySteps links follow here rest = d.way links here rest)
    (hfollow : ∀ here steps, follow here (steps ++ rest) =
      (follow here steps).bind fun found => d.way found.2 found.1 rest) :
    d.waySteps links follow here (steps ++ rest) =
      (d.waySteps links follow here steps).bind fun found => d.way found.2 found.1 rest := by
  induction steps generalizing here with
  | nil => exact hhere here
  | cons step steps ih =>
      rw [List.cons_append, waySteps, waySteps]
      split_ifs with hdot hdots hlong
      · exact ih
      · exact ih
      · rfl
      · cases d.find? here step with
        | none => rfl
        | some entry =>
            cases entry with
            | directory number => exact ih
            | link target =>
                dsimp only
                rw [← List.append_assoc]
                exact hfollow _ _
            | file number => rfl
            | device isFull => rfl

theorem way_append : d.way links here (steps ++ rest) =
    (d.way links here steps).bind fun found => d.way found.2 found.1 rest := by
  induction links generalizing here steps with
  | zero => exact waySteps_append (fun _ => rfl) fun _ _ => rfl
  | succ links ih => exact waySteps_append (fun _ => rfl) fun _ _ => ih

/-- A way goes on into a directory. -/
theorem way_directory (hdot : name ≠ ".") (hup : name ≠ "..")
    (hshort : name.utf8ByteSize ≤ maxName)
    (hentry : d.find? directory name = some (.directory number)) :
    d.way links directory [name] = some (number, links) := by
  have hstep (follow) : d.waySteps links follow directory [name] = some (number, links) := by
    rw [waySteps, if_neg hdot, if_neg hup, if_neg (by omega), hentry]
    rfl
  cases links with
  | zero => exact hstep _
  | succ links => exact hstep _

/-! ## Rows of directories -/

/-- A path goes into a new directory, which is empty.  The last names of the path are missing. -/
structure GoesNew (d : Disk) (here : Nat) (path : String) (missing : List String) (d' : Disk) :
    Prop where
  nonempty : path ≠ ""
  sound : Sound d'
  grown : d.directories.size ≤ d'.directories.size
  way : ∃ front there links, Path.names path = front ++ missing ∧
    d'.way maxLinks (start here path) front = some (there, links) ∧
    ∀ name, d'.find? there name = none

/-- What is known when directories for a path were to be created: none was, or the path goes
into a new one. -/
def Created (d : Disk) (here : Nat) (path : String) (outcome : Except IoFault Unit) (d' : Disk) :
    Prop :=
  (d' = d ∧ (outcome = .ok () → path = "" ∨ d.isDirectory here path = true)) ∨
    ∃ missing, GoesNew d here path missing d' ∧ (outcome = .ok () → missing = [])

theorem createDir_eq_ok (h : d.createDir here path = .ok d') :
    ∃ directory name isMarked, d.locate .name here path = .ok (.name directory name none isMarked) ∧
      d' = d.addDirectory directory name := by
  unfold createDir at h
  cases hplace : d.locate .name here path with
  | error fault =>
      rw [hplace] at h
      cases h
  | ok place =>
      rw [hplace] at h
      cases place with
      | directory number => cases h
      | name directory name entry isMarked =>
          cases entry with
          | some entry => cases h
          | none =>
              cases h
              exact ⟨directory, name, isMarked, rfl, rfl⟩

/-- A path whose directory is missing has names. -/
theorem names_of_createDir_notFound (hne : path ≠ "")
    (h : d.createDir here path = .error .notFound) : Path.names path ≠ [] := by
  intro hnames
  have hlegal : Legal path := by
    unfold createDir locate at h
    by_cases hnul : path.toList.contains '\x00' = true
    · rw [if_pos hnul] at h
      cases h
    by_cases hlong : maxPath < path.utf8ByteSize
    · rw [if_neg hnul, if_neg (by simpa using hne), if_pos hlong] at h
      cases h
    exact ⟨Bool.not_eq_true _ ▸ hnul, hne, Nat.le_of_not_lt hlong⟩
  have hway : d.isDirectory here path = true := by
    rw [isDirectory_iff hlegal, hnames]
    exact ⟨_, _, rfl⟩
  rw [createDir_of_isDirectory hway] at h
  cases h

theorem goesNew_of_createDir (hsound : Sound d) (hinside : here < d.directories.size)
    (hne : path ≠ "") (h : d.createDir here path = .ok d') : GoesNew d here path [] d' := by
  obtain ⟨directory, name, isMarked, hplace, rfl⟩ := createDir_eq_ok h
  obtain ⟨front, links, hsteps, hdot, hup, hshort, hway, -, hfree⟩ := way_of_locate hplace
  have hstart := start_lt hinside path
  have hlt : directory < d.directories.size := hsound.way_lt hstart hway
  have hentry : (d.addDirectory directory name).find? directory name =
      some (.directory d.directories.size) := by
    rw [find?_addDirectory hlt, if_pos ⟨rfl, rfl⟩]
  refine ⟨hne, hsound.addDirectory hlt name, by rw [size_addDirectory]; exact Nat.le_succ _,
    Path.names path, d.directories.size, links, (List.append_nil _).symm, ?_, ?_⟩
  · rw [Path.names_eq_filter_steps, hsteps, way_filter, way_append,
      way_addDirectory hsound hlt hfree.symm hstart hway]
    exact way_directory hdot hup hshort hentry
  · intro other
    rw [find?, directoryAt_addDirectory, if_pos rfl]
    rfl

section

variable {last : String} {missing : List String}

/-- A path goes into the new directory that its parent goes into. -/
theorem GoesNew.child (h : GoesNew d here up missing d') (hpart : up.toList <+: path.toList)
    (hnames : Path.names path = Path.names up ++ [last]) :
    GoesNew d here path (missing ++ [last]) d' := by
  obtain ⟨front, there, links, hup, hway, hempty⟩ := h.way
  refine ⟨?_, h.sound, h.grown, front, there, links, ?_, start_of_part hpart h.nonempty ▸ hway,
    hempty⟩
  · rintro rfl
    exact h.nonempty (by simpa using hpart)
  · rw [hnames, hup, List.append_assoc]

theorem GoesNew.entryAt?_eq_none (h : GoesNew d here path (name :: missing) d')
    (hup : name ≠ "..") : d'.entryAt? here path = none := by
  obtain ⟨front, there, links, hnames, hway, hempty⟩ := h.way
  exact entryAt?_of_missing hnames hup hway (hempty name)

/-- The last directory of a row. -/
theorem GoesNew.createDir (h : GoesNew d here up [] d') (hpart : up.toList <+: path.toList)
    (hnames : Path.names path = Path.names up ++ [last]) (hlast : last ≠ "..")
    (hinside : here < d.directories.size) {answer : Except IoFault Unit × Disk}
    (hanswer : answer = match d'.createDir here path with
      | .ok d'' => (.ok (), d'')
      | .error fault => (if d'.isDirectory here path then .ok () else .error fault, d')) :
    Created d here path answer.1 answer.2 := by
  have hchild : GoesNew d here path [last] d' := h.child hpart hnames
  cases hmade : d'.createDir here path with
  | ok d'' =>
      have hnew := goesNew_of_createDir h.sound (Nat.lt_of_lt_of_le hinside h.grown)
        hchild.nonempty hmade
      rw [hmade] at hanswer
      subst hanswer
      exact .inr ⟨[], ⟨hnew.nonempty, hnew.sound, Nat.le_trans h.grown hnew.grown, hnew.way⟩,
        fun _ => rfl⟩
  | error fault =>
      have hnowhere : d'.isDirectory here path = false := by
        rw [isDirectory, hchild.entryAt?_eq_none hlast]
      rw [hmade, hnowhere] at hanswer
      subst hanswer
      exact .inr ⟨[last], hchild, nofun⟩

end

theorem created_createRow (hsound : Sound d) (hinside : here < d.directories.size)
    (hdots : ".." ∉ Path.names path) (fuel : Nat) :
    Created d here path (d.createRow here fuel path).1 (d.createRow here fuel path).2 := by
  induction fuel generalizing path with
  | zero => exact .inl ⟨rfl, nofun⟩
  | succ fuel ih =>
      rw [createRow]
      by_cases hempty : path.isEmpty = true
      · rw [if_pos hempty]
        exact .inl ⟨rfl, fun _ => .inl (by simpa using hempty)⟩
      have hne : path ≠ "" := by simpa using hempty
      have hstays (fault : IoFault) : Created d here path
          (if d.isDirectory here path = true then .ok () else .error fault) d := by
        refine .inl ⟨rfl, fun hdone => .inr ?_⟩
        split_ifs at hdone with hdirectory
        exact hdirectory
      rw [if_neg hempty]
      cases hfirst : d.createDir here path with
      | ok d' => exact .inr ⟨[], goesNew_of_createDir hsound hinside hne hfirst, fun _ => rfl⟩
      | error fault =>
          dsimp only
          by_cases hother : fault ≠ .notFound
          · rw [if_neg hother]
            exact hstays fault
          obtain rfl : fault = .notFound := Decidable.of_not_not hother
          rw [if_pos rfl]
          obtain ⟨front, last, hnames⟩ := (List.eq_nil_or_concat (Path.names path)).resolve_left
            (names_of_createDir_notFound hne hfirst)
          rw [List.concat_eq_append] at hnames
          obtain ⟨up, hparent, hup, hpart, -, -⟩ := Path.parent_names hnames
          rw [← hup] at hnames
          have hcreated : Created d here up (d.createRow here fuel up).1
              (d.createRow here fuel up).2 :=
            ih fun hmem => hdots (hnames ▸ List.mem_append_left _ hmem)
          have hlast : last ≠ ".." := by
            rintro rfl
            exact hdots (by simp [hnames])
          rw [hparent]
          dsimp only
          generalize d.createRow here fuel up = row at hcreated
          obtain ⟨outcome, d₁⟩ := row
          rcases hcreated with ⟨hsame, -⟩ | ⟨missing, hnew, hdone⟩
          · -- nothing was created above, so the second attempt fails like the first one
            obtain rfl : d₁ = d := hsame
            cases outcome with
            | error fault => exact .inl ⟨rfl, nofun⟩
            | ok done =>
                dsimp only
                rw [hfirst]
                exact hstays _
          · cases outcome with
            | error fault => exact .inr ⟨_, hnew.child hpart hnames, nofun⟩
            | ok done =>
                obtain rfl := hdone rfl
                exact hnew.createDir hpart hnames hlast hinside rfl

/-- What holds after each new directory, holds after a row of them. -/
theorem createRow_preserves {P : Disk → Prop}
    (hcreate : ∀ {d d' : Disk} {path : String}, P d → d.createDir here path = .ok d' → P d')
    (h : P d) (fuel : Nat) (path : String) : P (d.createRow here fuel path).2 := by
  induction fuel generalizing path with
  | zero => exact h
  | succ fuel ih =>
      rw [createRow]
      by_cases hempty : path.isEmpty = true
      · rw [if_pos hempty]
        exact h
      rw [if_neg hempty]
      cases hfirst : d.createDir here path with
      | ok d' => exact hcreate h hfirst
      | error fault =>
          dsimp only
          by_cases hother : fault = .notFound
          · rw [if_pos hother]
            cases Path.parent? path with
            | none => exact h
            | some up =>
                -- the directories above come first, and only then the last one
                have hup := ih up
                dsimp only
                generalize d.createRow here fuel up = row at hup
                obtain ⟨outcome, d₁⟩ := row
                cases outcome with
                | error fault => exact hup
                | ok done =>
                    dsimp only
                    cases hlast : d₁.createDir here path with
                    | ok d₂ => exact hcreate hup hlast
                    | error fault => exact hup
          · rw [if_neg hother]
            exact h

theorem Sound.createDir (hsound : Sound d) (hinside : here < d.directories.size)
    (h : d.createDir here path = .ok d') : Sound d' ∧ here < d'.directories.size := by
  obtain ⟨directory, name, isMarked, hplace, rfl⟩ := createDir_eq_ok h
  refine ⟨hsound.addDirectory (hsound.lt_of_locate hinside hplace) name, ?_⟩
  rw [size_addDirectory]
  exact Nat.lt_succ_of_lt hinside

/-- Directories may be created at any path. -/
theorem Sound.createRow (hsound : Sound d) (hinside : here < d.directories.size) (fuel : Nat)
    (path : String) :
    Sound (d.createRow here fuel path).2 ∧
      here < (d.createRow here fuel path).2.directories.size :=
  createRow_preserves (P := fun d => Sound d ∧ here < d.directories.size)
    (fun h hmade => h.1.createDir h.2 hmade) ⟨hsound, hinside⟩ fuel path

end

/-! ## Disks with more directories -/

/-- Nothing is new on a disk but directories. -/
structure Grown (d d' : Disk) : Prop where
  entries : ∀ directory name entry, d.find? directory name = some entry →
    d'.find? directory name = some entry
  fresh : ∀ directory name entry, d'.find? directory name = some entry →
    d.find? directory name = some entry ∨ ∃ number, entry = .directory number
  contents : d'.contents = d.contents

theorem Grown.refl (d : Disk) : Grown d d := ⟨fun _ _ _ => id, fun _ _ _ => .inl, rfl⟩

theorem Grown.addDirectory {directory : Nat} (h : Grown d d')
    (hlt : directory < d'.directories.size) (hfree : d'.find? directory name = none) :
    Grown d (d'.addDirectory directory name) := by
  refine ⟨?_, ?_, h.contents⟩
  · intro other otherName entry hentry
    rw [find?_addDirectory hlt, if_neg, h.entries _ _ _ hentry]
    rintro ⟨rfl, rfl⟩
    cases hfree.symm.trans (h.entries _ _ _ hentry)
  · intro other otherName entry hentry
    rw [find?_addDirectory hlt] at hentry
    split_ifs at hentry
    · exact .inr ⟨_, (Option.some.inj hentry).symm⟩
    · exact h.fresh _ _ _ hentry

/-- To create directories for a path changes nothing that is there. -/
theorem grown_createDirs (hsound : Sound d) (hinside : here < d.directories.size) (path : String) :
    Grown d (d.createDirs here path).2 := by
  refine (createRow_preserves
    (P := fun after => Grown d after ∧ Sound after ∧ here < after.directories.size)
    (fun h hmade => ?_) ⟨.refl d, hsound, hinside⟩ (path.length + 1) path).1
  obtain ⟨hgrown, hsound', hinside'⟩ := h
  have hafter := hsound'.createDir hinside' hmade
  obtain ⟨directory, name, isMarked, hplace, rfl⟩ := createDir_eq_ok hmade
  exact ⟨hgrown.addDirectory (hsound'.lt_of_locate hinside' hplace)
    (find?_of_locate (by decide) hplace), hafter⟩

end Disk

end Backlog
