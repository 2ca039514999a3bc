/-!
# The host

What the program asks of the system it runs on: variables, clocks, files, signals and
an error stream.  The program is written over any monad that answers these questions,
so it runs on a real system and on a system that is only described.
-/

namespace Backlog

/-- Why the system refused an operation on a file. -/
inductive IoFault where
  /-- A refusal with the system's number and wording. -/
  | os (code : Nat) (wording : String)
  | nulInName
  | notText
  | noRoot
  deriving DecidableEq, Repr

namespace IoFault

/-- The wording of a refusal. -/
def message : IoFault → String
  | .os code wording => wording ++ " (os error " ++ toString code ++ ")"
  | .nulInName => "file name contained an unexpected NUL byte"
  | .notText => "stream did not contain valid UTF-8"
  | .noRoot => "failed to create whole tree"

/-- Nothing of this name exists. -/
def notFound : IoFault := .os 2 "No such file or directory"

/-- The system needs the place for itself. -/
def busy : IoFault := .os 16 "Device or resource busy"

/-- The name is taken. -/
def alreadyExists : IoFault := .os 17 "File exists"

/-- Something that is no directory stands where one is needed. -/
def notDirectory : IoFault := .os 20 "Not a directory"

/-- A directory stands where a file is needed. -/
def isDirectory : IoFault := .os 21 "Is a directory"

/-- What the path leads to does not allow the operation. -/
def invalidArgument : IoFault := .os 22 "Invalid argument"

/-- There is no room left. -/
def noSpace : IoFault := .os 28 "No space left on device"

/-- A name or a path is too long. -/
def nameTooLong : IoFault := .os 36 "File name too long"

/-- A directory that has entries is in the way. -/
def notEmpty : IoFault := .os 39 "Directory not empty"

/-- Symbolic links lead around in a circle. -/
def linkLoop : IoFault := .os 40 "Too many levels of symbolic links"

end IoFault

/-- The requests that reach a running daemon from outside. -/
inductive Signal where
  | shutdown
  | reload
  | activate
  | deactivate
  deriving DecidableEq, Repr, Inhabited

/-- What became of bytes that were to be written: how many were, and why not the
rest. -/
structure Written where
  count : Nat
  fault : Option IoFault
  deriving DecidableEq, Repr

/-- A point in time, in nanoseconds since the start of 1970 in UTC. -/
structure Instant where
  nanos : Int
  deriving DecidableEq, Repr, Inhabited

/-- A system that a program runs on. -/
class Host (m : Type → Type) where
  /-- An open file. -/
  File : Type
  /-- The value of a variable. -/
  env : String → m (Option String)
  /-- The time of day. -/
  now : m Instant
  /-- Milliseconds on a clock that never goes back. -/
  uptime : m Nat
  /-- The number of the running process. -/
  pid : m UInt32
  /-- Whether there is something at a path. -/
  isThere : String → m Bool
  /-- The bytes of a file. -/
  read : String → m (Except IoFault ByteArray)
  /-- Create a directory and those it lies in. -/
  createDirs : String → m (Except IoFault Unit)
  /-- Open a file for writing at its end, and say how large it is. -/
  openAppend : String → m (Except IoFault (File × Nat))
  /-- Open a file for writing from its beginning, and drop what was in it. -/
  openFresh : String → m (Except IoFault File)
  /-- Write bytes to an open file. -/
  write : File → ByteArray → m Written
  /-- Have what was written to a file stored safely. -/
  sync : File → m (Except IoFault Unit)
  /-- Give a file another path, in place of what is there. -/
  rename : String → String → m (Except IoFault Unit)
  /-- Remove a file. -/
  remove : String → m (Except IoFault Unit)
  /-- Write to the error stream; says whether that worked. -/
  printError : String → m Bool
  /-- Whether a signal has arrived and was not taken yet. -/
  isRaised : Signal → m Bool
  /-- Take a signal: say whether it has arrived, and forget it. -/
  takeSignal : Signal → m Bool
  /-- Send a signal to a process. -/
  kill : UInt32 → Signal → m (Except String Unit)
  /-- Wait a number of milliseconds. -/
  sleep : Nat → m Unit

namespace Host

/-- A host also serves computations that keep a state of their own. -/
instance {m : Type → Type} {σ : Type} [Monad m] [Host m] : Host (StateT σ m) where
  File := File m
  env name := StateT.lift (env name)
  now := StateT.lift now
  uptime := StateT.lift uptime
  pid := StateT.lift pid
  isThere path := StateT.lift (isThere path)
  read path := StateT.lift (read path)
  createDirs path := StateT.lift (createDirs path)
  openAppend path := StateT.lift (openAppend path)
  openFresh path := StateT.lift (openFresh path)
  write file bytes := StateT.lift (write file bytes)
  sync file := StateT.lift (sync file)
  rename source target := StateT.lift (rename source target)
  remove path := StateT.lift (remove path)
  printError text := StateT.lift (printError text)
  isRaised signal := StateT.lift (isRaised signal)
  takeSignal signal := StateT.lift (takeSignal signal)
  kill pid signal := StateT.lift (kill pid signal)
  sleep millis := StateT.lift (sleep millis)

variable {m : Type → Type} [Monad m] [Host m]

/-- Write a line to the error stream. -/
def warn (line : String) : m Unit := do
  let _ ← printError (m := m) (line ++ "\n")

/-- The text of a file. -/
def readText (path : String) : m (Except IoFault String) := do
  match ← read path with
  | .error fault => return .error fault
  | .ok bytes =>
    match String.fromUTF8? bytes with
    | some text => return .ok text
    | none => return .error .notText

end Host

end Backlog
