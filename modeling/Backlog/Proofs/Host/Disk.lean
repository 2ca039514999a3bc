import Backlog.Host.Disk
import Mathlib.Tactic.SplitIfs

/-!
# What a removal takes away

To remove what is at a path is to erase the name at the end of its walk.  A walk that led to
this name leads to nothing then, also one that went on from it through a link
(`misses_walk`).  If the name stood for no link, any other walk ends where it did before, or
fails where it failed before (`spares_walk`).

Every walk is followed in the same way: along its steps up to a link, and then by induction on
how many links may follow.
-/

namespace Backlog

/-- What no way goes on from: neither a directory nor a link. -/
def Entry.IsLeaf (entry : Entry) : Prop :=
  (∀ number, entry ≠ .directory number) ∧ ∀ target, entry ≠ .link target

namespace Disk

variable {d : Disk} {directory : Nat} {name : String}

/-! ## An erased name -/

theorem directoryAt_erase (d : Disk) (directory : Nat) (name : String) (other : Nat) :
    (d.erase directory name).directoryAt other =
      if directory = other then
        { d.directoryAt other with entries := (d.directoryAt other).entries.erase name }
      else d.directoryAt other := by
  by_cases hlt : directory < d.directories.size
  · exact directoryAt_modify d _ directory other hlt
  · -- there is no such directory: nothing changes, and an empty one stands for it
    have hsame : (d.erase directory name).directories = d.directories := by
      apply Array.ext
      · exact Array.size_modify
      · intro i hi hi'
        have hne : directory ≠ i := by omega
        exact (Array.getElem_modify _).trans (if_neg hne)
    rw [directoryAt, hsame]
    by_cases hother : directory = other
    · subst hother
      have hnone : d.directoryAt directory = ⟨root, .empty⟩ := by
        simp [directoryAt, Array.getD_eq_getD_getElem?, Nat.not_lt.1 hlt]
      rw [if_pos rfl, ← directoryAt, hnone]
      rfl
    · rw [if_neg hother]
      rfl

theorem parent_erase (d : Disk) (directory : Nat) (name : String) (other : Nat) :
    ((d.erase directory name).directoryAt other).parent = (d.directoryAt other).parent := by
  rw [directoryAt_erase]
  split <;> rfl

theorem find?_erase (d : Disk) (directory : Nat) (name : String) (other : Nat)
    (otherName : String) :
    (d.erase directory name).find? other otherName =
      if directory = other ∧ name = otherName then none else d.find? other otherName := by
  rw [find?, directoryAt_erase]
  by_cases hother : directory = other
  · rw [if_pos hother]
    simp only [hother, true_and]
    exact Table.find?_erase _ _ _
  · rw [if_neg hother, if_neg (fun h => hother h.1)]
    rfl

/-! ## Walks -/

/-- A walk goes on from a name, by what it stands for. -/
def arrive (d : Disk) (aim : Aim) (follow : Nat → Bool → List String → Except IoFault Place)
    (here : Nat) (isMarked : Bool) (step : String) (rest : List String) :
    Option Entry → Except IoFault Place
  | some (.link target) =>
    if rest.isEmpty ∧ aim = .name then .ok (.name here step (some (.link target)) isMarked)
    else
      follow (if Path.isAbsolute target then root else here)
        (isMarked || rest.isEmpty && Path.endsInSlash target) (Path.steps target ++ rest)
  | some (.directory number) =>
    if rest.isEmpty then .ok (.name here step (some (.directory number)) isMarked)
    else d.walkSteps aim follow number isMarked rest
  | entry =>
    if rest.isEmpty then .ok (.name here step entry isMarked)
    else .error (if entry.isNone then .notFound else .notDirectory)

theorem walkSteps_step (d : Disk) (aim : Aim)
    (follow : Nat → Bool → List String → Except IoFault Place)
    (here : Nat) (isMarked : Bool) (step : String) (rest : List String) :
    d.walkSteps aim follow here isMarked (step :: rest) =
      if step = "." then d.walkSteps aim follow here isMarked rest
      else if step = ".." then
        d.walkSteps aim follow (d.directoryAt here).parent isMarked rest
      else if rest.isEmpty ∧ isMarked ∧ aim = .creation then .error .isDirectory
      else if maxName < step.utf8ByteSize then .error .nameTooLong
      else d.arrive aim follow here isMarked step rest (d.find? here step) := by
  rw [walkSteps]
  unfold arrive
  rfl

theorem walkSteps_cons {aim : Aim} (haim : aim ≠ .creation) (d : Disk)
    (follow : Nat → Bool → List String → Except IoFault Place)
    (here : Nat) (isMarked : Bool) (step : String) (rest : List String) :
    d.walkSteps aim follow here isMarked (step :: rest) =
      if step = "." then d.walkSteps aim follow here isMarked rest
      else if step = ".." then
        d.walkSteps aim follow (d.directoryAt here).parent isMarked rest
      else if maxName < step.utf8ByteSize then .error .nameTooLong
      else d.arrive aim follow here isMarked step rest (d.find? here step) := by
  have hany : ¬(rest.isEmpty = true ∧ isMarked = true ∧ aim = .creation) := fun h => haim h.2.2
  rw [walkSteps_step, if_neg hany]

section

variable {follow follow' : Nat → Bool → List String → Except IoFault Place} {here : Nat}
  {mark : Bool} {steps : List String}

/-- What a way past an erased name leads to: nothing, or its empty place. -/
def Misses (directory : Nat) (name : String) (found : Except IoFault Place) : Prop :=
  found = .error .notFound ∨ ∃ isMarked, found = .ok (.name directory name none isMarked)

theorem misses_arrive (rest : List String) :
    Misses directory name (d.arrive .target follow directory mark name rest none) := by
  cases rest with
  | nil => exact .inr ⟨mark, rfl⟩
  | cons _ _ => exact .inl rfl

theorem arrive_name_nil (found : Option Entry) (step : String) :
    d.arrive .name follow here mark step [] found = .ok (.name here step found mark) := by
  cases found with
  | none => rfl
  | some entry => cases entry <;> rfl

theorem arrive_target_link (step target : String) (rest : List String) :
    d.arrive .target follow here mark step rest (some (.link target)) =
      follow (if Path.isAbsolute target then root else here)
        (mark || rest.isEmpty && Path.endsInSlash target) (Path.steps target ++ rest) :=
  if_neg fun h => nomatch h.2

theorem misses_walkSteps {entry : Option Entry} {isMarked : Bool}
    (hfollow : ∀ here mark steps,
      follow here mark steps = .ok (.name directory name entry isMarked) →
        Misses directory name (follow' here mark steps))
    (h : d.walkSteps .name follow here mark steps = .ok (.name directory name entry isMarked)) :
    Misses directory name
      ((d.erase directory name).walkSteps .target follow' here mark steps) := by
  induction steps generalizing here mark with
  | nil => cases h
  | cons step rest ih =>
      rw [walkSteps_cons (by decide)] at h ⊢
      split_ifs at h ⊢ with hdot hdots hlong
      · exact ih h
      · rw [parent_erase]
        exact ih h
      · rw [find?_erase]
        by_cases herased : directory = here ∧ name = step
        · obtain ⟨rfl, rfl⟩ := herased
          rw [if_pos ⟨rfl, rfl⟩]
          exact misses_arrive rest
        · rw [if_neg herased]
          cases rest with
          | nil =>
              -- the walk would end at another name
              rw [arrive_name_nil] at h
              cases h
              exact absurd ⟨rfl, rfl⟩ herased
          | cons _ _ =>
              cases hfound : d.find? here step with
              | none =>
                  rw [hfound] at h
                  cases h
              | some found =>
                  rw [hfound] at h
                  cases found with
                  | directory number => exact ih h
                  | link target => exact hfollow _ _ _ h
                  | file number => cases h
                  | device isFull => cases h

/-- Once the name at which a walk ends is erased, the same way leads to nothing, also if the
name stood for a link. -/
theorem misses_walk {entry : Option Entry} {isMarked : Bool} {links : Nat}
    (h : d.walk .name links here mark steps = .ok (.name directory name entry isMarked)) :
    Misses directory name ((d.erase directory name).walk .target links here mark steps) := by
  induction links generalizing here mark steps with
  | zero =>
      rw [walk] at h ⊢
      refine misses_walkSteps ?_ h
      intro _ _ _ h
      cases h
  | succ links ih => exact misses_walkSteps (fun _ _ _ h => ih h) h

/-! ## Walks to what a name stands for -/

/-- Whether a walk ends at a link. -/
def EndsAtLink (found : Except IoFault Place) : Prop :=
  ∃ directory name target isMarked,
    found = .ok (.name directory name (some (.link target)) isMarked)

theorem walkSteps_target
    (hfollow : ∀ here mark steps, ¬EndsAtLink (follow here mark steps) →
      follow' here mark steps = follow here mark steps)
    (h : ¬EndsAtLink (d.walkSteps .name follow here mark steps)) :
    d.walkSteps .target follow' here mark steps = d.walkSteps .name follow here mark steps := by
  induction steps generalizing here mark with
  | nil => rfl
  | cons step rest ih =>
      rw [walkSteps_cons (by decide)] at h ⊢
      rw [walkSteps_cons (by decide)]
      split_ifs at h ⊢ with hdot hdots hlong
      · exact ih h
      · exact ih h
      · rfl
      · cases rest with
        | nil =>
            rw [arrive_name_nil] at h ⊢
            cases hfound : d.find? here step with
            | none => rfl
            | some found =>
                cases found with
                | link target => exact absurd ⟨_, _, _, _, by rw [hfound]⟩ h
                | _ => rfl
        | cons _ _ =>
            cases hfound : d.find? here step with
            | none => rfl
            | some found =>
                rw [hfound] at h
                cases found with
                | directory number => exact ih h
                | link target => exact hfollow _ _ _ h
                | file number => rfl
                | device isFull => rfl

/-- A walk to a name and one to what it stands for differ only in links. -/
theorem walk_target {links : Nat} (h : ¬EndsAtLink (d.walk .name links here mark steps)) :
    d.walk .target links here mark steps = d.walk .name links here mark steps := by
  induction links generalizing here mark steps with
  | zero => exact walkSteps_target (fun _ _ _ _ => rfl) h
  | succ links ih => exact walkSteps_target (fun _ _ _ h => ih h) h

/-! ## Walks elsewhere -/

/-- What an erased name that stood for an entry makes of a way: it is the same, or it led to
the entry and misses it now, or it ended there before. -/
def Spares (directory : Nat) (name : String) (entry : Entry)
    (before after : Except IoFault Place) : Prop :=
  after = before ∨
    (∃ isMarked, before = .ok (.name directory name (some entry) isMarked) ∧
      after = .ok (.name directory name none isMarked)) ∨
    before = .error .notDirectory ∧ after = .error .notFound

theorem spares_arrive {entry : Entry} (hleaf : entry.IsLeaf) (rest : List String) :
    Spares directory name entry
      (d.arrive .target follow directory mark name rest (some entry))
      ((d.erase directory name).arrive .target follow' directory mark name rest none) := by
  cases entry with
  | directory number => exact absurd rfl (hleaf.1 number)
  | link target => exact absurd rfl (hleaf.2 target)
  | _ =>
      cases rest with
      | nil => exact .inr (.inl ⟨mark, rfl, rfl⟩)
      | cons _ _ => exact .inr (.inr ⟨rfl, rfl⟩)

theorem spares_walkSteps {entry : Entry} (hleaf : entry.IsLeaf)
    (hentry : d.find? directory name = some entry)
    (hfollow : ∀ here mark steps,
      Spares directory name entry (follow here mark steps) (follow' here mark steps)) :
    Spares directory name entry (d.walkSteps .target follow here mark steps)
      ((d.erase directory name).walkSteps .target follow' here mark steps) := by
  induction steps generalizing here mark with
  | nil => exact .inl rfl
  | cons step rest ih =>
      rw [walkSteps_cons (by decide), walkSteps_cons (by decide)]
      split_ifs with hdot hdots hlong
      · exact ih
      · rw [parent_erase]
        exact ih
      · exact .inl rfl
      · rw [find?_erase]
        by_cases herased : directory = here ∧ name = step
        · obtain ⟨rfl, rfl⟩ := herased
          rw [if_pos ⟨rfl, rfl⟩, hentry]
          exact spares_arrive hleaf rest
        · rw [if_neg herased]
          cases d.find? here step with
          | none => exact .inl rfl
          | some found =>
              cases found with
              | link target =>
                  rw [arrive_target_link, arrive_target_link]
                  exact hfollow _ _ _
              | directory number =>
                  cases rest with
                  | nil => exact .inl rfl
                  | cons _ _ => exact ih
              | file number => exact .inl rfl
              | device isFull => exact .inl rfl

theorem spares_walk {entry : Entry} (hleaf : entry.IsLeaf)
    (hentry : d.find? directory name = some entry) {links : Nat} :
    Spares directory name entry (d.walk .target links here mark steps)
      ((d.erase directory name).walk .target links here mark steps) := by
  induction links generalizing here mark steps with
  | zero => exact spares_walkSteps hleaf hentry fun _ _ _ => .inl rfl
  | succ links ih => exact spares_walkSteps hleaf hentry fun _ _ _ => ih

/-! ## The entry at a place -/

theorem find?_of_walkSteps {aim : Aim} (haim : aim ≠ .creation) {entry : Option Entry}
    {isMarked : Bool}
    (hfollow : ∀ here mark steps,
      follow here mark steps = .ok (.name directory name entry isMarked) →
        d.find? directory name = entry)
    (h : d.walkSteps aim follow here mark steps = .ok (.name directory name entry isMarked)) :
    d.find? directory name = entry := by
  induction steps generalizing here mark with
  | nil => cases h
  | cons step rest ih =>
      rw [walkSteps_cons haim] at h
      split_ifs at h with hdot hdots hlong
      · exact ih h
      · exact ih h
      · cases hfound : d.find? here step with
        | none =>
            rw [hfound] at h
            cases rest with
            | nil =>
                cases h
                exact hfound
            | cons _ _ => cases h
        | some found =>
            rw [hfound] at h
            unfold arrive at h
            cases found <;> dsimp only at h <;> split_ifs at h <;> first
              | (cases h; exact hfound)
              | exact ih h
              | exact hfollow _ _ _ h

/-- The entry of a place is what the name stands for. -/
theorem find?_of_walk {aim : Aim} (haim : aim ≠ .creation) {links : Nat} {entry : Option Entry}
    {isMarked : Bool}
    (h : d.walk aim links here mark steps = .ok (.name directory name entry isMarked)) :
    d.find? directory name = entry := by
  induction links generalizing here mark steps with
  | zero =>
      rw [walk] at h
      refine find?_of_walkSteps haim ?_ h
      intro _ _ _ h
      cases h
  | succ links ih => exact find?_of_walkSteps haim (fun _ _ _ h => ih h) h

end

/-! ## Paths -/

section

variable {here : Nat} {path : String}

/-- What is said about a path once its walk is over. -/
def settle (aim : Aim) : Except IoFault Place → Except IoFault Place
  | .error fault => .error fault
  | .ok place =>
    if aim = .target ∧ place.isMisnamed then .error .notDirectory else .ok place

/-- A path is refused whatever the disk holds, or it is walked. -/
theorem locate_cases (here : Nat) (path : String) :
    (∃ fault, ∀ (d : Disk) (aim : Aim), d.locate aim here path = .error fault) ∨
    ∃ start isMarked steps, ∀ (d : Disk) (aim : Aim),
      d.locate aim here path = settle aim (d.walk aim maxLinks start isMarked steps) := by
  by_cases hnul : path.toList.contains '\x00' = true
  · exact .inl ⟨_, fun _ _ => if_pos hnul⟩
  by_cases hempty : path.isEmpty = true
  · exact .inl ⟨_, fun _ _ => by rw [locate, if_neg hnul, if_pos hempty]⟩
  by_cases hlong : maxPath < path.utf8ByteSize
  · exact .inl ⟨_, fun _ _ => by rw [locate, if_neg hnul, if_neg hempty, if_pos hlong]⟩
  refine .inr ⟨if Path.isAbsolute path then root else here, Path.endsInSlash path,
    Path.steps path, fun d aim => ?_⟩
  rw [locate, if_neg hnul, if_neg hempty, if_neg hlong]
  unfold settle
  rfl

theorem settle_name (found : Except IoFault Place) : settle .name found = found := by
  cases found with
  | error fault => rfl
  | ok place => simp [settle]

theorem settle_none (aim : Aim) (isMarked : Bool) :
    settle aim (.ok (.name directory name none isMarked)) =
      .ok (.name directory name none isMarked) := by
  simp [settle, Place.isMisnamed]

theorem settle_leaf {entry : Entry} (hleaf : entry.IsLeaf) (isMarked : Bool) :
    settle .target (.ok (.name directory name (some entry) isMarked)) =
      bif isMarked then .error .notDirectory
      else .ok (.name directory name (some entry) false) := by
  cases entry with
  | directory number => exact absurd rfl (hleaf.1 number)
  | _ => cases isMarked <;> rfl

theorem Misses.settle {found : Except IoFault Place} (h : Misses directory name found) :
    Misses directory name (settle .target found) := by
  rcases h with rfl | ⟨isMarked, rfl⟩
  · exact .inl rfl
  · exact .inr ⟨isMarked, settle_none .target isMarked⟩

theorem settle_eq_ok {aim : Aim} {found : Except IoFault Place} {place : Place}
    (h : settle aim found = .ok place) : found = .ok place := by
  unfold settle at h
  cases found with
  | error fault => cases h
  | ok found =>
      dsimp only at h
      split_ifs at h
      cases h
      rfl

theorem find?_of_locate {aim : Aim} (haim : aim ≠ .creation) {entry : Option Entry}
    {isMarked : Bool}
    (h : d.locate aim here path = .ok (.name directory name entry isMarked)) :
    d.find? directory name = entry := by
  rcases locate_cases here path with ⟨fault, hrefused⟩ | ⟨start, mark, steps, hwalked⟩
  · rw [hrefused] at h
    cases h
  · rw [hwalked] at h
    exact find?_of_walk haim (settle_eq_ok h)

theorem misses_locate {entry : Option Entry} {isMarked : Bool}
    (h : d.locate .name here path = .ok (.name directory name entry isMarked)) :
    Misses directory name ((d.erase directory name).locate .target here path) := by
  rcases locate_cases here path with ⟨fault, hrefused⟩ | ⟨start, mark, steps, hwalked⟩
  · rw [hrefused] at h
    cases h
  · rw [hwalked, settle_name] at h
    rw [hwalked]
    exact (misses_walk h).settle

theorem locate_target (h : ¬EndsAtLink (d.locate .name here path)) :
    d.locate .target here path = settle .target (d.locate .name here path) := by
  rcases locate_cases here path with ⟨fault, hrefused⟩ | ⟨start, mark, steps, hwalked⟩
  · rw [hrefused, hrefused]
    rfl
  · rw [hwalked, settle_name] at h
    rw [hwalked, hwalked, settle_name, walk_target h]

theorem isThere_of_misses (h : Misses directory name (d.locate .target here path)) :
    d.isThere here path = false := by
  unfold isThere entryAt?
  rcases h with hmissing | ⟨isMarked, hempty⟩
  · rw [hmissing]
    rfl
  · rw [hempty]
    rfl

theorem read_of_misses (h : Misses directory name (d.locate .target here path)) :
    d.read here path = .error .notFound := by
  unfold read
  rcases h with hmissing | ⟨isMarked, hempty⟩
  · rw [hmissing]
  · rw [hempty]
    rfl

/-- What is at a path once a leaf is erased: as much as before, unless it was the leaf. -/
theorem isThere_erase {entry : Entry} (hleaf : entry.IsLeaf)
    (hentry : d.find? directory name = some entry) :
    (d.erase directory name).isThere here path = true ↔
      d.isThere here path = true ∧
        d.locate .target here path ≠ .ok (.name directory name (some entry) false) := by
  unfold isThere entryAt?
  rcases locate_cases here path with ⟨fault, hrefused⟩ | ⟨start, mark, steps, hwalked⟩
  · rw [hrefused, hrefused]
    simp
  rw [hwalked, hwalked]
  have hspares : Spares directory name entry (d.walk .target maxLinks start mark steps)
      ((d.erase directory name).walk .target maxLinks start mark steps) :=
    spares_walk hleaf hentry
  rcases hspares with hsame | ⟨isMarked, hbefore, hafter⟩ | ⟨hbefore, hafter⟩
  · have hother : settle .target (d.walk .target maxLinks start mark steps) ≠
        .ok (.name directory name (some entry) false) := by
      intro hplace
      -- the same walk would end at the name after it was erased
      have hstays : (d.erase directory name).find? directory name = some entry := by
        rw [← hsame, ← hwalked] at hplace
        exact find?_of_locate (by decide) hplace
      rw [find?_erase, if_pos ⟨rfl, rfl⟩] at hstays
      cases hstays
    rw [hsame]
    exact (and_iff_left hother).symm
  · rw [hbefore, hafter, settle_none, settle_leaf hleaf]
    cases isMarked <;> simp [Place.entry]
  · rw [hbefore, hafter]
    simp [settle]

/-! ## Removals -/

theorem remove_eq_ok {after : Disk} (h : d.remove here path = .ok after) :
    ∃ directory name entry,
      d.locate .name here path = .ok (.name directory name (some entry) false) ∧
      (∀ number, entry ≠ .directory number) ∧ after = d.erase directory name := by
  unfold remove at h
  cases hfound : d.locate .name here path with
  | error fault =>
      rw [hfound] at h
      cases h
  | ok place =>
      rw [hfound] at h
      cases place with
      | directory number => cases h
      | name directory name entry isMarked =>
          cases entry with
          | none => cases h
          | some entry =>
              cases entry with
              | directory number => cases h
              | _ =>
                  dsimp only at h
                  split_ifs at h with hmark
                  cases h
                  rw [Bool.not_eq_true] at hmark
                  subst hmark
                  exact ⟨directory, name, _, rfl, nofun, rfl⟩

/-- After a removal the path leads to nothing. -/
theorem misses_of_remove {after : Disk} (h : d.remove here path = .ok after) :
    ∃ directory name, Misses directory name (after.locate .target here path) := by
  obtain ⟨directory, name, entry, hplace, -, rfl⟩ := remove_eq_ok h
  exact ⟨directory, name, misses_locate hplace⟩

/-- A path with nothing to remove leads to nothing. -/
theorem misses_of_remove_notFound (h : d.remove here path = .error .notFound) :
    ∃ directory name, Misses directory name (d.locate .target here path) := by
  unfold remove at h
  cases hfound : d.locate .name here path with
  | error fault =>
      rw [hfound] at h
      cases h
      refine ⟨root, "", .inl ?_⟩
      rw [locate_target (by rw [hfound]; rintro ⟨_, _, _, _, hlink⟩; cases hlink), hfound]
      rfl
  | ok place =>
      rw [hfound] at h
      cases place with
      | directory number => cases h
      | name directory name entry isMarked =>
          cases entry with
          | none =>
              refine ⟨directory, name, .inr ⟨isMarked, ?_⟩⟩
              rw [locate_target (by rw [hfound]; rintro ⟨_, _, _, _, hlink⟩; cases hlink), hfound]
              exact settle_none .target isMarked
          | some entry =>
              cases entry with
              | directory number => cases h
              | _ =>
                  dsimp only at h
                  split_ifs at h
                  cases h

/-- What is at a path after a removal that removed no link: as much as before, unless the path
led to what was removed. -/
theorem isThere_remove {after : Disk} (h : d.remove here path = .ok after)
    (hlink : ¬EndsAtLink (d.locate .name here path)) (other : String) :
    after.isThere here other = true ↔
      d.isThere here other = true ∧
        d.locate .target here other ≠ d.locate .target here path := by
  obtain ⟨directory, name, entry, hplace, hdirectory, rfl⟩ := remove_eq_ok h
  have hleaf : entry.IsLeaf := by
    refine ⟨hdirectory, fun target htarget => hlink ?_⟩
    exact ⟨directory, name, target, false, by rw [hplace, htarget]⟩
  rw [isThere_erase hleaf (find?_of_locate (by decide) hplace), locate_target hlink, hplace,
    settle_leaf hleaf]
  rfl

end

end Disk

end Backlog
