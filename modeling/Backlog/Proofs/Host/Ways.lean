import Backlog.Proofs.Host.Disk
import Backlog.Proofs.Host.Path

/-!
# Ways through directories

All steps of a path but the last one have to lead to directories.  Where they lead, and how many
links may still be followed from there, is `way`.  What a walk does with its last steps does not
depend on those before, apart from that (`walk_append`), so what is known of the way to one file
is known of the way to all files beside it.

Files come and go on a disk, but they never stand in the way of anything.  On two disks with the
same directories and links (`SameWays`) a path leads to the same place (`walk_sameWays`).
-/

namespace Backlog

/-- The same place on another disk. -/
def Place.on (place : Place) (d : Disk) : Place :=
  match place with
  | .directory number => .directory number
  | .name home text _ isMarked => .name home text (d.find? home text) isMarked

namespace Disk

/-! ## Ways -/

/-- Go along steps that lead to directories, up to a link, at which `follow` goes on. -/
def waySteps (d : Disk) (links : Nat) (follow : Nat → List String → Option (Nat × Nat))
    (here : Nat) : List String → Option (Nat × Nat)
  | [] => some (here, links)
  | step :: rest =>
    if step = "." then waySteps d links follow here rest
    else if step = ".." then waySteps d links follow (d.directoryAt here).parent rest
    else if maxName < step.utf8ByteSize then none
    else
      match d.find? here step with
      | some (.link target) =>
        follow (if Path.isAbsolute target then root else here) (Path.steps target ++ rest)
      | some (.directory number) => waySteps d links follow number rest
      | _ => none

/-- The directory that steps lead to, over so many links at most, and how many of them are left. -/
def way (d : Disk) : Nat → Nat → List String → Option (Nat × Nat)
  | 0 => waySteps d 0 fun _ _ => none
  | links + 1 => waySteps d (links + 1) (way d links)

section

variable {d d' : Disk} {aim : Aim} {links links' here there : Nat} {mark : Bool}
  {steps front rest : List String}

/-- A walk that goes on from where a way led to, or that failed as the way did. -/
def Continues (d : Disk) (aim : Aim) (mark : Bool) (rest : List String)
    (found : Except IoFault Place) : Option (Nat × Nat) → Prop
  | some (there, links) => found = d.walk aim links there mark rest
  | none => ∃ fault, found = .error fault

/-- A step that is not the last one. -/
theorem walkSteps_front (d : Disk) (aim : Aim)
    (follow : Nat → Bool → List String → Except IoFault Place) (here : Nat) (mark : Bool)
    (step : String) (hrest : rest ≠ []) :
    d.walkSteps aim follow here mark (step :: rest) =
      if step = "." then d.walkSteps aim follow here mark rest
      else if step = ".." then d.walkSteps aim follow (d.directoryAt here).parent mark rest
      else if maxName < step.utf8ByteSize then .error .nameTooLong
      else
        match d.find? here step with
        | some (.link target) =>
          follow (if Path.isAbsolute target then root else here) mark (Path.steps target ++ rest)
        | some (.directory number) => d.walkSteps aim follow number mark rest
        | entry => .error (if entry.isNone then .notFound else .notDirectory) := by
  obtain ⟨next, rest, rfl⟩ := List.exists_cons_of_ne_nil hrest
  cases mark <;> rfl

theorem walkSteps_append {follow : Nat → Bool → List String → Except IoFault Place}
    {follow' : Nat → List String → Option (Nat × Nat)} (hrest : rest ≠ [])
    (hhere : ∀ here, d.walkSteps aim follow here mark rest = d.walk aim links here mark rest)
    (hfollow : ∀ here steps,
      Continues d aim mark rest (follow here mark (steps ++ rest)) (follow' here steps)) :
    Continues d aim mark rest (d.walkSteps aim follow here mark (front ++ rest))
      (d.waySteps links follow' here front) := by
  induction front generalizing here with
  | nil => exact hhere here
  | cons step front ih =>
      rw [List.cons_append, walkSteps_front d aim follow here mark step (by simp [hrest]), waySteps]
      split_ifs with hdot hdots hlong
      · exact ih
      · exact ih
      · exact ⟨_, rfl⟩
      · cases hfound : d.find? here step with
        | none => exact ⟨_, rfl⟩
        | some entry =>
            cases entry with
            | directory number => exact ih
            | link target =>
                have h := hfollow (if Path.isAbsolute target then root else here)
                  (Path.steps target ++ front)
                rw [List.append_assoc] at h
                exact h
            | file number => exact ⟨_, rfl⟩
            | device isFull => exact ⟨_, rfl⟩

/-- What a walk does with its last steps depends on the way before them only. -/
theorem walk_append (hrest : rest ≠ []) :
    Continues d aim mark rest (d.walk aim links here mark (front ++ rest))
      (d.way links here front) := by
  induction links generalizing here front with
  | zero => exact walkSteps_append hrest (fun _ => rfl) fun _ _ => ⟨_, rfl⟩
  | succ links ih => exact walkSteps_append hrest (fun _ => rfl) fun _ _ => ih

theorem walk_of_way (hrest : rest ≠ []) (hway : d.way links here front = some (there, links')) :
    d.walk aim links here mark (front ++ rest) = d.walk aim links' there mark rest := by
  have h : Continues d aim mark rest (d.walk aim links here mark (front ++ rest))
      (d.way links here front) := walk_append hrest
  rw [hway] at h
  exact h

/-- A walk that leads somewhere has a way to its last steps. -/
theorem way_of_walk {place : Place} (hrest : rest ≠ [])
    (h : d.walk aim links here mark (front ++ rest) = .ok place) :
    ∃ there links', d.way links here front = some (there, links') := by
  have happend : Continues d aim mark rest (d.walk aim links here mark (front ++ rest))
      (d.way links here front) := walk_append hrest
  cases hway : d.way links here front with
  | some found => exact ⟨found.1, found.2, rfl⟩
  | none =>
      rw [hway] at happend
      obtain ⟨fault, hfault⟩ := happend
      cases hfault.symm.trans h

/-- The last step of a walk to a name. -/
theorem walk_name_last {name : String} (hdot : name ≠ ".") (hdots : name ≠ "..")
    (hshort : name.utf8ByteSize ≤ maxName) :
    d.walk .name links here mark [name] = .ok (.name here name (d.find? here name) mark) := by
  have hsteps (follow) : d.walkSteps .name follow here mark [name] =
      .ok (.name here name (d.find? here name) mark) := by
    rw [walkSteps_cons (by decide), if_neg hdot, if_neg hdots, if_neg (by omega), arrive_name_nil]
  cases links with
  | zero => exact hsteps _
  | succ links => exact hsteps _

/-! ## Directories -/

/-- A walk that leads to the directory that a way led to, or to no directory if there is none. -/
def LeadsIn (found : Except IoFault Place) : Option (Nat × Nat) → Prop
  | some (there, _) => ∃ place, found = .ok place ∧ place.entry = some (.directory there)
  | none => ∀ place, found = .ok place → ∀ there, place.entry ≠ some (.directory there)

theorem walkSteps_leadsIn {follow : Nat → Bool → List String → Except IoFault Place}
    {follow' : Nat → List String → Option (Nat × Nat)}
    (hfollow : ∀ here mark steps, LeadsIn (follow here mark steps) (follow' here steps)) :
    LeadsIn (d.walkSteps .target follow here mark steps)
      (d.waySteps links follow' here steps) := by
  induction steps generalizing here mark with
  | nil => exact ⟨_, rfl, rfl⟩
  | cons step rest ih =>
      rw [walkSteps_cons (by decide), waySteps]
      split_ifs with hdot hdots hlong
      · exact ih
      · exact ih
      · exact fun _ h => by cases h
      · cases hfound : d.find? here step with
        | none =>
            cases rest with
            | nil =>
                rintro place ⟨⟩ there h
                cases h
            | cons _ _ => exact fun _ h => by cases h
        | some entry =>
            cases entry with
            | directory number =>
                cases rest with
                | nil => exact ⟨_, rfl, rfl⟩
                | cons _ _ => exact ih
            | link target =>
                rw [arrive_target_link]
                exact hfollow _ _ _
            | file number =>
                cases rest with
                | nil =>
                    rintro place ⟨⟩ there h
                    cases h
                | cons _ _ => exact fun _ h => by cases h
            | device isFull =>
                cases rest with
                | nil =>
                    rintro place ⟨⟩ there h
                    cases h
                | cons _ _ => exact fun _ h => by cases h

/-- A walk leads to a directory exactly if there is a way, and then to the same one. -/
theorem walk_leadsIn :
    LeadsIn (d.walk .target links here mark steps) (d.way links here steps) := by
  induction links generalizing here mark steps with
  | zero => exact walkSteps_leadsIn fun _ _ _ _ h => by cases h
  | succ links ih => exact walkSteps_leadsIn fun _ _ _ => ih

/-! ## Dots -/

theorem waySteps_filter {follow follow' : Nat → List String → Option (Nat × Nat)}
    (hfollow : ∀ here target rest, follow here (target ++ rest.filter (fun step => step ≠ ".")) =
      follow' here (target ++ rest)) :
    d.waySteps links follow here (steps.filter fun step => step ≠ ".") =
      d.waySteps links follow' here steps := by
  induction steps generalizing here with
  | nil => rfl
  | cons step rest ih =>
      by_cases hdot : step = "."
      · rw [List.filter_cons_of_neg (by simpa using hdot), waySteps, if_pos hdot, ih]
      · rw [List.filter_cons_of_pos (by simpa using hdot), waySteps, waySteps, if_neg hdot,
          if_neg hdot]
        split_ifs with hdots hlong
        · exact ih
        · rfl
        · cases d.find? here step with
          | none => rfl
          | some entry =>
              cases entry with
              | directory number => exact ih
              | link target => exact hfollow _ _ _
              | file number => rfl
              | device isFull => rfl

/-- Single dots in a way say nothing. -/
theorem way_filter :
    d.way links here (steps.filter fun step => step ≠ ".") = d.way links here steps := by
  induction links generalizing here steps with
  | zero => exact waySteps_filter fun _ _ _ => rfl
  | succ links ih =>
      refine waySteps_filter fun here target rest => ?_
      calc
        d.way links here (target ++ rest.filter fun step => step ≠ ".") =
            d.way links here ((target ++ rest.filter fun step => step ≠ ".").filter
              fun step => step ≠ ".") := ih.symm
        _ = d.way links here ((target ++ rest).filter fun step => step ≠ ".") := by
            rw [List.filter_append, List.filter_append, List.filter_filter]
            simp only [Bool.and_self]
        _ = d.way links here (target ++ rest) := ih

/-! ## Disks with the same ways -/

/-- Nothing is there, or something that no way goes on from. -/
def EndsWays (entry : Option Entry) : Prop := ∀ e, entry = some e → e.IsLeaf

/-- The same directories and links are on both disks. -/
structure SameWays (d d' : Disk) : Prop where
  parent : ∀ number, (d'.directoryAt number).parent = (d.directoryAt number).parent
  entries : ∀ directory name, d'.find? directory name = d.find? directory name ∨
    EndsWays (d.find? directory name) ∧ EndsWays (d'.find? directory name)

theorem SameWays.refl (d : Disk) : SameWays d d := ⟨fun _ => rfl, fun _ _ => .inl rfl⟩

theorem SameWays.symm (h : SameWays d d') : SameWays d' d := by
  refine ⟨fun number => (h.parent number).symm, ?_⟩
  intro directory name
  rcases h.entries directory name with hsame | ⟨hbefore, hafter⟩
  · exact .inl hsame.symm
  · exact .inr ⟨hafter, hbefore⟩

theorem SameWays.trans {d'' : Disk} (h : SameWays d d') (h' : SameWays d' d'') :
    SameWays d d'' := by
  refine ⟨fun number => (h'.parent number).trans (h.parent number), ?_⟩
  intro directory name
  rcases h.entries directory name with hsame | ⟨hbefore, hafter⟩
  · rw [← hsame]
    exact h'.entries directory name
  · rcases h'.entries directory name with hsame' | ⟨-, hafter'⟩
    · exact .inr ⟨hbefore, hsame' ▸ hafter⟩
    · exact .inr ⟨hbefore, hafter'⟩

/-- A name that a way goes on from stands for the same on both disks. -/
theorem SameWays.find? (h : SameWays d d') {directory : Nat} {name : String} {entry : Entry}
    (hentry : d.find? directory name = some entry) (hgoes : ¬entry.IsLeaf) :
    d'.find? directory name = some entry := by
  rcases h.entries directory name with hsame | ⟨hbefore, -⟩
  · rw [hsame, hentry]
  · exact absurd (hbefore entry hentry) hgoes

theorem endsWays_none : EndsWays none := nofun

theorem endsWays_file (number : Nat) : EndsWays (some (.file number)) := by
  rintro e ⟨⟩
  exact ⟨nofun, nofun⟩

theorem endsWays_device (isFull : Bool) : EndsWays (some (.device isFull)) := by
  rintro e ⟨⟩
  exact ⟨nofun, nofun⟩

theorem EndsWays.cases {entry : Option Entry} (h : EndsWays entry) :
    entry = none ∨ (∃ number, entry = some (.file number)) ∨
      ∃ isFull, entry = some (.device isFull) := by
  cases entry with
  | none => exact .inl rfl
  | some entry =>
      cases entry with
      | directory number => exact absurd rfl ((h _ rfl).1 number)
      | link target => exact absurd rfl ((h _ rfl).2 target)
      | file number => exact .inr (.inl ⟨number, rfl⟩)
      | device isFull => exact .inr (.inr ⟨isFull, rfl⟩)

/-- A walk that leads to the same place on another disk, or fails on both. -/
def Agrees (d' : Disk) : Except IoFault Place → Except IoFault Place → Prop
  | .ok place, after => after = .ok (place.on d')
  | .error _, after => ∃ fault, after = .error fault

theorem agrees_ok {name : String} {entry entry' : Option Entry}
    (h : d'.find? here name = entry') :
    Agrees d' (.ok (.name here name entry mark)) (.ok (.name here name entry' mark)) := by
  subst h
  exact rfl

section

variable {follow follow' : Nat → Bool → List String → Except IoFault Place} {step : String}

theorem arrive_last {entry : Option Entry} (h : EndsWays entry) :
    d.arrive aim follow here mark step [] entry = .ok (.name here step entry mark) := by
  rcases h.cases with rfl | ⟨number, rfl⟩ | ⟨isFull, rfl⟩ <;> rfl

theorem arrive_stuck {entry : Option Entry} (h : EndsWays entry) (next : String) :
    ∃ fault, d.arrive aim follow here mark step (next :: rest) entry = .error fault := by
  rcases h.cases with rfl | ⟨number, rfl⟩ | ⟨isFull, rfl⟩ <;> exact ⟨_, rfl⟩

/-- At a name walks agree if it stands for the same on both disks, or no way goes on from it. -/
theorem agrees_arrive
    (hentries : d'.find? here step = d.find? here step ∨
      EndsWays (d.find? here step) ∧ EndsWays (d'.find? here step))
    (hfollow : ∀ here mark steps, Agrees d' (follow here mark steps) (follow' here mark steps))
    (hrest : ∀ here, Agrees d' (d.walkSteps aim follow here mark rest)
      (d'.walkSteps aim follow' here mark rest)) :
    Agrees d' (d.arrive aim follow here mark step rest (d.find? here step))
      (d'.arrive aim follow' here mark step rest (d'.find? here step)) := by
  by_cases hends : EndsWays (d.find? here step)
  · have hends' : EndsWays (d'.find? here step) := by
      rcases hentries with hsame | ⟨-, hafter⟩
      · rw [hsame]
        exact hends
      · exact hafter
    cases rest with
    | nil =>
        rw [arrive_last hends, arrive_last hends']
        exact agrees_ok rfl
    | cons next rest =>
        obtain ⟨fault, hbefore⟩ := arrive_stuck hends next
        rw [hbefore]
        exact arrive_stuck hends' next
  · -- the same directory or link is on both disks
    have hsame : d'.find? here step = d.find? here step :=
      hentries.resolve_right fun h => hends h.1
    rw [hsame]
    cases hfound : d.find? here step with
    | none => exact absurd (hfound ▸ endsWays_none) hends
    | some entry =>
        rw [hfound] at hsame hends
        cases entry with
        | directory number =>
            cases rest with
            | nil => exact agrees_ok hsame
            | cons _ _ => exact hrest number
        | link target =>
            unfold arrive
            dsimp only
            by_cases hname : rest.isEmpty ∧ aim = .name
            · rw [if_pos hname, if_pos hname]
              exact agrees_ok hsame
            · rw [if_neg hname, if_neg hname]
              exact hfollow _ _ _
        | file number => exact absurd (endsWays_file number) hends
        | device isFull => exact absurd (endsWays_device isFull) hends

theorem walkSteps_sameWays (h : SameWays d d')
    (hfollow : ∀ here mark steps,
      Agrees d' (follow here mark steps) (follow' here mark steps)) :
    Agrees d' (d.walkSteps aim follow here mark steps)
      (d'.walkSteps aim follow' here mark steps) := by
  induction steps generalizing here with
  | nil => exact (rfl : Except.ok (Place.directory here) = .ok (.directory here))
  | cons step rest ih =>
      rw [walkSteps_step, walkSteps_step]
      split_ifs with hdot hdots hmark hlong
      · exact ih
      · rw [h.parent]
        exact ih
      · exact ⟨_, rfl⟩
      · exact ⟨_, rfl⟩
      · exact agrees_arrive (h.entries here step) hfollow fun _ => ih

end

/-- A path leads to the same place on disks with the same ways, or to none on both. -/
theorem walk_sameWays (h : SameWays d d') :
    Agrees d' (d.walk aim links here mark steps) (d'.walk aim links here mark steps) := by
  induction links generalizing here mark steps with
  | zero => exact walkSteps_sameWays h fun _ _ _ => ⟨_, rfl⟩
  | succ links ih => exact walkSteps_sameWays h fun _ _ _ => ih

end

/-! ## Paths -/

section

variable {d d' : Disk} {here directory : Nat} {path name : String}

/-- Where the way of a path starts. -/
def start (here : Nat) (path : String) : Nat := if Path.isAbsolute path then root else here

/-- A path that is looked at. -/
structure Legal (path : String) : Prop where
  nul : path.toList.contains '\x00' = false
  nonempty : path ≠ ""
  short : path.utf8ByteSize ≤ maxPath

theorem locate_of_legal (h : Legal path) (aim : Aim) :
    d.locate aim here path = settle aim
      (d.walk aim maxLinks (start here path) (Path.endsInSlash path) (Path.steps path)) := by
  have hnul : ¬path.toList.contains '\x00' = true := Bool.not_eq_true _ ▸ h.nul
  have hempty : ¬path.isEmpty = true := by simpa using h.nonempty
  rw [locate, if_neg hnul, if_neg hempty, if_neg (Nat.not_lt.2 h.short)]
  unfold settle start
  rfl

theorem legal_of_locate {aim : Aim} {place : Place} (h : d.locate aim here path = .ok place) :
    Legal path := by
  unfold locate at h
  by_cases hnul : path.toList.contains '\x00' = true
  · rw [if_pos hnul] at h
    cases h
  by_cases hempty : path.isEmpty = true
  · rw [if_neg hnul, if_pos hempty] at h
    cases h
  by_cases hlong : maxPath < path.utf8ByteSize
  · rw [if_neg hnul, if_neg hempty, if_pos hlong] at h
    cases h
  exact ⟨Bool.not_eq_true _ ▸ hnul, by simpa using hempty, Nat.le_of_not_lt hlong⟩

/-- A path that leads to a name has a way to its directory. -/
theorem way_of_locate {entry : Option Entry} {isMarked : Bool}
    (h : d.locate .name here path = .ok (.name directory name entry isMarked)) :
    ∃ front links, Path.steps path = front ++ [name] ∧ name ≠ "." ∧ name ≠ ".." ∧
      name.utf8ByteSize ≤ maxName ∧
      d.way maxLinks (start here path) front = some (directory, links) ∧
      isMarked = Path.endsInSlash path ∧ entry = d.find? directory name := by
  rw [locate_of_legal (legal_of_locate h), settle_name] at h
  rcases List.eq_nil_or_concat (Path.steps path) with hnil | ⟨front, last, hsteps⟩
  · rw [hnil] at h
    cases h
  rw [List.concat_eq_append] at hsteps
  rw [hsteps] at h
  obtain ⟨there, links, hway⟩ := way_of_walk (by simp) h
  rw [walk_of_way (by simp) hway] at h
  have hlast : last ≠ "." ∧ last ≠ ".." ∧ last.utf8ByteSize ≤ maxName := by
    refine ⟨?_, ?_, ?_⟩
    · rintro rfl
      cases links <;> cases h
    · rintro rfl
      cases links <;> cases h
    · refine Nat.le_of_not_lt fun hlong => ?_
      have hdot : last ≠ "." := by
        rintro rfl
        exact absurd hlong (by decide)
      have hdots : last ≠ ".." := by
        rintro rfl
        exact absurd hlong (by decide)
      cases links <;>
      · rw [walk, walkSteps_cons (by decide), if_neg hdot, if_neg hdots, if_pos hlong] at h
        cases h
  obtain ⟨hdot, hdots, hshort⟩ := hlast
  rw [walk_name_last hdot hdots hshort] at h
  cases h
  exact ⟨front, links, hsteps, hdot, hdots, hshort, hway, rfl, rfl⟩

/-- A path leads to its last step in the directory that its way leads to. -/
theorem locate_of_way {front : List String} {links : Nat} (hlegal : Legal path)
    (hsteps : Path.steps path = front ++ [name]) (hdot : name ≠ ".") (hdots : name ≠ "..")
    (hshort : name.utf8ByteSize ≤ maxName)
    (hway : d.way maxLinks (start here path) front = some (directory, links)) :
    d.locate .name here path =
      .ok (.name directory name (d.find? directory name) (Path.endsInSlash path)) := by
  rw [locate_of_legal hlegal, settle_name, hsteps, walk_of_way (by simp) hway,
    walk_name_last hdot hdots hshort]

theorem isDirectory_eq_true :
    d.isDirectory here path = true ↔
      ∃ number, d.entryAt? here path = some (.directory number) := by
  unfold isDirectory
  split
  · rename_i number hentry
    exact iff_of_true rfl ⟨number, hentry⟩
  · rename_i hother
    exact iff_of_false (by simp) fun ⟨number, hentry⟩ => hother number hentry

theorem entryAt?_eq_directory (hlegal : Legal path) {number : Nat} :
    d.entryAt? here path = some (.directory number) ↔
      ∃ place, d.walk .target maxLinks (start here path) (Path.endsInSlash path)
        (Path.steps path) = .ok place ∧ place.entry = some (.directory number) := by
  unfold entryAt?
  rw [locate_of_legal hlegal]
  constructor
  · intro h
    cases hwalk : settle .target (d.walk .target maxLinks (start here path)
        (Path.endsInSlash path) (Path.steps path)) with
    | error fault =>
        rw [hwalk] at h
        cases h
    | ok place =>
        rw [hwalk] at h
        exact ⟨place, settle_eq_ok hwalk, h⟩
  · rintro ⟨place, hwalk, hentry⟩
    have hnamed : ¬(Aim.target = Aim.target ∧ place.isMisnamed = true) := by
      cases place with
      | directory number => simp [Place.isMisnamed]
      | name directory name entry isMarked =>
          obtain rfl : entry = _ := hentry
          simp [Place.isMisnamed]
    rw [hwalk, settle, if_neg hnamed]
    exact hentry

/-- There is a directory at a path exactly if there is a way along its names. -/
theorem isDirectory_iff (hlegal : Legal path) :
    d.isDirectory here path = true ↔
      ∃ there links, d.way maxLinks (start here path) (Path.names path) = some (there, links) := by
  have hleads : LeadsIn (d.walk .target maxLinks (start here path) (Path.endsInSlash path)
      (Path.steps path)) (d.way maxLinks (start here path) (Path.steps path)) := walk_leadsIn
  have hnames : d.way maxLinks (start here path) (Path.names path) =
      d.way maxLinks (start here path) (Path.steps path) := by
    rw [Path.names_eq_filter_steps]
    exact way_filter
  rw [hnames, isDirectory_eq_true]
  cases hway : d.way maxLinks (start here path) (Path.steps path) with
  | some found =>
      rw [hway] at hleads
      refine iff_of_true ⟨found.1, ?_⟩ ⟨found.1, found.2, rfl⟩
      exact (entryAt?_eq_directory hlegal).2 hleads
  | none =>
      rw [hway] at hleads
      refine iff_of_false ?_ (by simp)
      rintro ⟨number, hentry⟩
      obtain ⟨place, hwalk, hplace⟩ := (entryAt?_eq_directory hlegal).1 hentry
      exact hleads place hwalk number hplace

theorem settle_unmarked (directory : Nat) (name : String) (entry : Option Entry) :
    settle .target (.ok (.name directory name entry false)) =
      .ok (.name directory name entry false) := by
  cases entry with
  | none => rfl
  | some entry => cases entry <;> rfl

/-- A name with a slash after it leads nowhere if no way goes on from it. -/
theorem settle_of_endsWays {entry : Option Entry} (h : EndsWays entry) (directory : Nat)
    (name : String) :
    (match settle .target (.ok (.name directory name entry true)) with
      | .ok place => place.entry
      | .error _ => none) = none := by
  rcases h.cases with rfl | ⟨_, rfl⟩ | ⟨_, rfl⟩ <;> rfl

/-- What is at a path on a disk with the same ways: nothing on both, or what the same place holds
on each. -/
theorem entryAt?_sameWays (h : SameWays d d') (here : Nat) (path : String) :
    (d.entryAt? here path = none ∧ d'.entryAt? here path = none) ∨
      ∃ place, d.locate .target here path = .ok place ∧
        d'.locate .target here path = .ok (place.on d') := by
  unfold entryAt?
  rcases locate_cases here path with ⟨fault, hrefused⟩ | ⟨start, mark, steps, hwalked⟩
  · rw [hrefused, hrefused]
    exact .inl ⟨rfl, rfl⟩
  have hagrees : Agrees d' (d.walk .target maxLinks start mark steps)
      (d'.walk .target maxLinks start mark steps) := walk_sameWays h
  rw [hwalked, hwalked]
  cases hwalk : d.walk .target maxLinks start mark steps with
  | error fault =>
      rw [hwalk] at hagrees
      obtain ⟨fault', hfault⟩ := hagrees
      rw [hfault]
      exact .inl ⟨rfl, rfl⟩
  | ok place =>
      rw [hwalk] at hagrees
      have hafter : d'.walk .target maxLinks start mark steps = .ok (place.on d') := hagrees
      rw [hafter]
      cases place with
      | directory number => exact .inr ⟨_, rfl, rfl⟩
      | name directory name entry isMarked =>
          obtain rfl := find?_of_walk (by decide) hwalk
          cases isMarked with
          | false => exact .inr ⟨_, settle_unmarked _ _ _, settle_unmarked _ _ _⟩
          | true =>
              rcases h.entries directory name with hsame | ⟨hbefore, hafter⟩
              · have hon : (Place.name directory name (d.find? directory name) true).on d' =
                    .name directory name (d.find? directory name) true := by rw [Place.on, hsame]
                rw [hon]
                cases hsettled :
                  settle .target (.ok (.name directory name (d.find? directory name) true)) with
                | error fault => exact .inl ⟨rfl, rfl⟩
                | ok place =>
                    cases settle_eq_ok hsettled
                    exact .inr ⟨_, rfl, by rw [hon]⟩
              · exact .inl ⟨settle_of_endsWays hbefore _ _, settle_of_endsWays hafter _ _⟩

end

end Disk

end Backlog
