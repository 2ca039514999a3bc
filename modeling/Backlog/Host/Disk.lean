import Backlog.Host.Basic
import Backlog.Host.Path
import Backlog.Table

/-!
# Disks

A described file system.  Directories and files have numbers; a directory lists what its
names stand for, and a file is found by its number, so one that is renamed or removed while
it is open can still be written to.

`walk` goes along the steps of a path from directory to directory, and `locate` says which
place a path leads to.  The operations answer as a Unix system would.
-/

namespace Backlog

/-- What a name can stand for. -/
inductive Entry where
  | directory (number : Nat)
  | file (number : Nat)
  /-- Another path, which is followed. -/
  | link (target : String)
  /-- A device that takes in any bytes, or that has no room for any. -/
  | device (isFull : Bool)
  deriving DecidableEq, Repr

/-- A directory: where it lies, and what its names stand for. -/
structure Directory where
  /-- The number of the directory it lies in; the root lies in itself. -/
  parent : Nat
  entries : Table Entry
  deriving Inhabited

/-- A file system. -/
structure Disk where
  /-- The directories by their numbers.  The first one is the root. -/
  directories : Array Directory
  /-- The contents of each file. -/
  contents : Array ByteArray

/-- A file that is open for writing. -/
structure OpenFile where
  path : String
  /-- The number of the file; none for a device. -/
  number : Option Nat
  /-- Whether there is no room for any bytes. -/
  isFull : Bool
  deriving DecidableEq, Repr, Inhabited

/-- What a path is followed for. -/
inductive Aim where
  /-- The name at its end, also that of a link. -/
  | name
  /-- What the name stands for, after all links. -/
  | target
  /-- A file that what the name stands for, after all links, is to be. -/
  | creation
  deriving DecidableEq, Repr

/-- Where a path leads. -/
inductive Place where
  /-- A directory that was reached by dots, or as the root. -/
  | directory (number : Nat)
  /-- A name in a directory, and what it stands for if it is taken.  `isMarked` says whether
  a slash came after the name, as it does after that of a directory. -/
  | name (directory : Nat) (name : String) (entry : Option Entry) (isMarked : Bool)
  deriving DecidableEq, Repr

/-- What stands at a place. -/
def Place.entry : Place → Option Entry
  | .directory number => some (.directory number)
  | .name _ _ entry _ => entry

/-- Whether the name of something that is no directory has a slash after it. -/
def Place.isMisnamed : Place → Bool
  | .directory _ | .name _ _ none _ | .name _ _ (some (.directory _)) _ => false
  | .name _ _ (some _) isMarked => isMarked

namespace Disk

/-- The number of the root. -/
def root : Nat := 0

/-- A disk with nothing but the root. -/
def empty : Disk := ⟨#[⟨root, .empty⟩], #[]⟩

/-- The directory with a number. -/
def directoryAt (d : Disk) (number : Nat) : Directory :=
  d.directories.getD number ⟨root, .empty⟩

/-- What a name in a directory stands for. -/
def find? (d : Disk) (directory : Nat) (name : String) : Option Entry :=
  (d.directoryAt directory).entries.find? name

/-- The longest name that a file may have, in bytes. -/
def maxName : Nat := 255

/-- The longest path that is looked at, in bytes. -/
def maxPath : Nat := 4095

/-- The most links that are followed on one way. -/
def maxLinks : Nat := 40

/-- Walk the steps of a path from a directory, up to a link, at which `follow` goes on.
Every step but the last one has to lead to a directory.  `isMarked` says whether a slash
comes after the last step; a link that is followed at the end may bring one too.  Where a
file is to be created that slash is refused at once. -/
def walkSteps (d : Disk) (aim : Aim) (follow : Nat → Bool → List String → Except IoFault Place)
    (here : Nat) (isMarked : Bool) : List String → Except IoFault Place
  | [] => .ok (.directory here)
  | step :: rest =>
    if step = "." then walkSteps d aim follow here isMarked rest
    else if step = ".." then walkSteps d aim follow (d.directoryAt here).parent isMarked rest
    else if rest.isEmpty ∧ isMarked ∧ aim = .creation then .error .isDirectory
    else if maxName < step.utf8ByteSize then .error .nameTooLong
    else
      match d.find? here step with
      | some (.link target) =>
        if rest.isEmpty ∧ aim = .name then .ok (.name here step (some (.link target)) isMarked)
        else
          follow (if Path.isAbsolute target then root else here)
            (isMarked || rest.isEmpty && Path.endsInSlash target) (Path.steps target ++ rest)
      | some (.directory number) =>
        if rest.isEmpty then .ok (.name here step (some (.directory number)) isMarked)
        else walkSteps d aim follow number isMarked rest
      | entry =>
        if rest.isEmpty then .ok (.name here step entry isMarked)
        else .error (if entry.isNone then .notFound else .notDirectory)

/-- Walk the steps of a path from a directory, over so many links at most. -/
def walk (d : Disk) (aim : Aim) : Nat → Nat → Bool → List String → Except IoFault Place
  | 0 => walkSteps d aim fun _ _ _ => .error .linkLoop
  | links + 1 => walkSteps d aim (walk d aim links)

/-- Where a path leads, seen from a directory. -/
def locate (d : Disk) (aim : Aim) (here : Nat) (path : String) : Except IoFault Place :=
  if path.toList.contains '\x00' then .error .nulInName
  else if path.isEmpty then .error .notFound
  else if maxPath < path.utf8ByteSize then .error .nameTooLong
  else
    let start := if Path.isAbsolute path then root else here
    match d.walk aim maxLinks start (Path.endsInSlash path) (Path.steps path) with
    | .error fault => .error fault
    | .ok place =>
      if aim = .target ∧ place.isMisnamed then .error .notDirectory else .ok place

/-- Let a name in a directory stand for something. -/
def put (d : Disk) (directory : Nat) (name : String) (entry : Entry) : Disk :=
  { d with
    directories := d.directories.modify directory fun t =>
      { t with entries := t.entries.insert name entry } }

/-- Let a name in a directory stand for nothing. -/
def erase (d : Disk) (directory : Nat) (name : String) : Disk :=
  { d with
    directories := d.directories.modify directory fun t =>
      { t with entries := t.entries.erase name } }

/-- A change of one directory is seen in that directory only. -/
theorem directoryAt_modify (d : Disk) (change : Directory → Directory) (number other : Nat)
    (h : number < d.directories.size) :
    ({ d with directories := d.directories.modify number change } : Disk).directoryAt other
      = if number = other then change (d.directoryAt other) else d.directoryAt other := by
  by_cases hne : number = other
  · subst hne
    simp [directoryAt, Array.getD_eq_getD_getElem?, Array.getElem_modify, h]
  · simp [directoryAt, Array.getD_eq_getD_getElem?, Array.getElem?_modify, hne]

/-- A name that was put stands for its entry; nothing else changes. -/
theorem find?_put (d : Disk) (directory : Nat) (name : String) (entry : Entry)
    (other : Nat) (otherName : String) (h : directory < d.directories.size) :
    (d.put directory name entry).find? other otherName
      = if directory = other ∧ name = otherName then some entry
        else d.find? other otherName := by
  unfold find? put
  rw [directoryAt_modify d _ directory other h]
  by_cases hne : directory = other
  · simp [hne, Table.find?_insert]
  · simp [hne]

/-- Put a new file with these contents into a directory. -/
def addFile (d : Disk) (directory : Nat) (name : String) (bytes : ByteArray) : Disk × Nat :=
  ({ d.put directory name (.file d.contents.size) with contents := d.contents.push bytes },
    d.contents.size)

/-- Put a new directory into a directory. -/
def addDirectory (d : Disk) (directory : Nat) (name : String) : Disk :=
  let d' := d.put directory name (.directory d.directories.size)
  { d' with directories := d'.directories.push ⟨directory, .empty⟩ }

/-- What a file holds. -/
def bytesOf (d : Disk) (number : Nat) : ByteArray := d.contents.getD number .empty

/-- Let a file hold other bytes. -/
def setBytes (d : Disk) (number : Nat) (bytes : ByteArray) : Disk :=
  { d with contents := d.contents.setIfInBounds number bytes }

/-- Write at the end of a file. -/
def append (d : Disk) (number : Nat) (bytes : ByteArray) : Disk :=
  { d with contents := d.contents.modify number fun old => old ++ bytes }

/-- What is at a path, if anything is. -/
def entryAt? (d : Disk) (here : Nat) (path : String) : Option Entry :=
  match d.locate .target here path with
  | .ok place => place.entry
  | .error _ => none

/-- Whether there is something at a path. -/
def isThere (d : Disk) (here : Nat) (path : String) : Bool := (d.entryAt? here path).isSome

/-- Whether there is a directory at a path. -/
def isDirectory (d : Disk) (here : Nat) (path : String) : Bool :=
  match d.entryAt? here path with
  | some (.directory _) => true
  | _ => false

/-- The bytes of the file at a path. -/
def read (d : Disk) (here : Nat) (path : String) : Except IoFault ByteArray :=
  match d.locate .target here path with
  | .error fault => .error fault
  | .ok place =>
    match place.entry with
    | none | some (.link _) => .error .notFound
    | some (.directory _) => .error .isDirectory
    | some (.file number) => .ok (d.bytesOf number)
    | some (.device _) => .ok .empty

/-- Create a directory in one that is there. -/
def createDir (d : Disk) (here : Nat) (path : String) : Except IoFault Disk :=
  match d.locate .name here path with
  | .error fault => .error fault
  | .ok (.name directory name none _) => .ok (d.addDirectory directory name)
  | .ok _ => .error .alreadyExists

/-- Create a directory and those it lies in, `fuel` of them at most.  Says how far it came
also if it fails. -/
def createRow (d : Disk) (here : Nat) : Nat → String → Except IoFault Unit × Disk
  | 0, _ => (.error .noRoot, d)
  | fuel + 1, path =>
    if path.isEmpty then (.ok (), d)
    else
      match d.createDir here path with
      | .ok d => (.ok (), d)
      | .error fault =>
        if fault = .notFound then
          match Path.parent? path with
          | none => (.error .noRoot, d)
          | some up =>
            match d.createRow here fuel up with
            | (.error fault, d) => (.error fault, d)
            | (.ok (), d) =>
              match d.createDir here path with
              | .ok d => (.ok (), d)
              | .error fault =>
                (if d.isDirectory here path then .ok () else .error fault, d)
        else (if d.isDirectory here path then .ok () else .error fault, d)

/-- Create a directory and those it lies in. -/
def createDirs (d : Disk) (here : Nat) (path : String) : Except IoFault Unit × Disk :=
  d.createRow here (path.length + 1) path

/-- Open the file at a path for writing; it is created if it is not there. -/
def openFile (d : Disk) (here : Nat) (path : String) : Except IoFault (OpenFile × Disk) :=
  match d.locate .creation here path with
  | .error fault => .error fault
  | .ok (.directory _) => .error .isDirectory
  | .ok (.name directory name entry _) =>
    match entry with
    | none =>
      let (d, number) := d.addFile directory name .empty
      .ok (⟨path, some number, false⟩, d)
    | some (.directory _) => .error .isDirectory
    | some (.link _) => .error .notFound
    | some (.file number) => .ok (⟨path, some number, false⟩, d)
    | some (.device isFull) => .ok (⟨path, none, isFull⟩, d)

/-- The size of an open file. -/
def sizeOf (d : Disk) (file : OpenFile) : Nat :=
  match file.number with
  | some number => (d.bytesOf number).size
  | none => 0

/-- Let an open file hold nothing. -/
def truncate (d : Disk) (file : OpenFile) : Disk :=
  match file.number with
  | some number => d.setBytes number .empty
  | none => d

/-- Write to the end of an open file. -/
def write (d : Disk) (file : OpenFile) (bytes : ByteArray) : Written × Disk :=
  if file.isFull ∧ bytes.size ≠ 0 then (⟨0, some .noSpace⟩, d)
  else
    match file.number with
    | some number => (⟨bytes.size, none⟩, d.append number bytes)
    | none => (⟨bytes.size, none⟩, d)

/-- Remove the file or the link at a path. -/
def remove (d : Disk) (here : Nat) (path : String) : Except IoFault Disk :=
  match d.locate .name here path with
  | .error fault => .error fault
  | .ok (.directory _) => .error .isDirectory
  | .ok (.name directory name entry isMarked) =>
    match entry with
    | none => .error .notFound
    | some (.directory _) => .error .isDirectory
    | some _ => if isMarked then .error .notDirectory else .ok (d.erase directory name)

/-- Whether a directory is another one, or lies below it `fuel` levels at most. -/
def liesIn (d : Disk) (outer : Nat) : Nat → Nat → Bool
  | 0, _ => false
  | fuel + 1, inner =>
    inner == outer || (inner != root && d.liesIn outer fuel (d.directoryAt inner).parent)

/-- Whether a directory is another one, or lies below it. -/
def isWithin (d : Disk) (inner outer : Nat) : Bool :=
  d.liesIn outer d.directories.size inner

/-- Give what stands under a name of a directory another name in a directory. -/
def move (d : Disk) (source : Nat) (oldName : String) (target : Nat) (newName : String)
    (entry : Entry) : Disk :=
  let d := (d.erase source oldName).put target newName entry
  match entry with
  | .directory number =>
    { d with
      directories := d.directories.modify number fun t => { t with parent := target } }
  | _ => d

/-- Give what is at one path another path.  A directory takes the place of nothing or of
an empty directory, anything else the place of nothing or of what is no directory.  What
already has the place stays there. -/
def rename (d : Disk) (here : Nat) (source target : String) : Except IoFault Disk := do
  match ← d.locate .name here source, ← d.locate .name here target with
  | .directory _, _ | _, .directory _ => throw .busy
  | .name _ _ none _, _ => throw .notFound
  | .name oldHome oldName (some (.directory number)) _, .name newHome newName taken _ =>
    if oldHome = newHome ∧ oldName = newName then return d
    else if d.isWithin newHome number then throw .invalidArgument
    else
      match taken with
      | none => return d.move oldHome oldName newHome newName (.directory number)
      | some (.directory other) =>
        if (d.directoryAt other).entries.entries.isEmpty then
          return d.move oldHome oldName newHome newName (.directory number)
        else throw .notEmpty
      | some _ => throw .notDirectory
  | .name oldHome oldName (some entry) oldMark, .name newHome newName taken newMark =>
    if oldMark || newMark then throw .notDirectory
    else
      match taken with
      | some (.directory other) =>
        throw (if d.isWithin oldHome other then .notEmpty else .isDirectory)
      | _ =>
        if oldHome = newHome ∧ oldName = newName then return d
        else return d.move oldHome oldName newHome newName entry

/-- Let the file at a place hold these bytes; it is created if there is none. -/
def store (d : Disk) (place : Place) (bytes : ByteArray) : Disk :=
  match place with
  | .name _ _ (some (.file number)) _ => d.setBytes number bytes
  | .name directory name _ _ => (d.addFile directory name bytes).1
  | .directory _ => d

/-- Let a place hold an entry. -/
def set (d : Disk) (place : Place) (entry : Entry) : Disk :=
  match place with
  | .name directory name _ _ => d.put directory name entry
  | .directory _ => d

/-- Take away what stands at a place, with all that lies below it. -/
def unset (d : Disk) (place : Place) : Disk :=
  match place with
  | .name directory name _ _ => d.erase directory name
  | .directory _ => d

/-- The entries below a directory, `fuel` levels deep at most, with `lead` before each of
their names; directories themselves are left out. -/
def listFrom (d : Disk) : Nat → String → Nat → List (String × Entry)
  | 0, _, _ => []
  | fuel + 1, lead, number =>
    (d.directoryAt number).entries.entries.flatMap fun (name, entry) =>
      match entry with
      | .directory inner => listFrom d fuel (lead ++ name ++ "/") inner
      | entry => [(lead ++ name, entry)]

/-- The entries below a directory that are no directories, under their paths from there. -/
def entriesBelow (d : Disk) (number : Nat) : Table Entry :=
  .ofList (d.listFrom d.directories.size "" number)

end Disk

end Backlog
