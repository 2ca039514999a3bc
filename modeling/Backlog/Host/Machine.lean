import Backlog.Host.Disk

/-!
# Machines

A described system: a disk, variables, clocks, signals and an error stream.  What can go
wrong on it is part of the description.  `upsets` decides for every operation, given its
number from the start, whether it fails and how; one kind of upset ends the process, and
from then on nothing has an effect any more.  `arrivals` says which signals come in
before each time that the program looks for one.

So a statement about all machines is one about every pattern of failures and every
arrival of signals.
-/

namespace Backlog

/-- An operation that may go wrong. -/
inductive FileOperation where
  | createDirs (path : String)
  | openAppend (path : String)
  | openFresh (path : String)
  | write (path : String)
  | sync (path : String)
  | rename (source target : String)
  | remove (path : String)
  | printError
  deriving DecidableEq, Repr

/-- How an operation goes wrong. -/
structure Upset where
  fault : IoFault
  /-- How many bytes are written before it goes wrong. -/
  written : Nat
  /-- Whether the process ends here. -/
  isEnd : Bool
  deriving DecidableEq, Repr

/-- The signals that have arrived and were not taken yet. -/
structure SignalFlags where
  shutdown : Bool
  reload : Bool
  activate : Bool
  deactivate : Bool
  deriving DecidableEq, Repr

namespace SignalFlags

/-- No signal has arrived. -/
def none : SignalFlags := ⟨false, false, false, false⟩

/-- Whether a signal has arrived. -/
def get (f : SignalFlags) : Signal → Bool
  | .shutdown => f.shutdown
  | .reload => f.reload
  | .activate => f.activate
  | .deactivate => f.deactivate

/-- Say of a signal whether it has arrived. -/
def set (f : SignalFlags) (value : Bool) : Signal → SignalFlags
  | .shutdown => { f with shutdown := value }
  | .reload => { f with reload := value }
  | .activate => { f with activate := value }
  | .deactivate => { f with deactivate := value }

end SignalFlags

/-- A described system. -/
structure Machine where
  disk : Disk
  /-- The number of the directory that relative paths start from. -/
  workingDir : Nat
  environ : Table String
  now : Instant
  uptime : Nat
  pid : UInt32
  /-- Whether the process with number `pid` takes signals. -/
  isListening : Bool
  signals : SignalFlags
  /-- The signals that come in before the next looks for one. -/
  arrivals : List (List Signal)
  /-- The signals that were sent. -/
  sent : List (UInt32 × Signal)
  /-- What was written to the error stream. -/
  errors : String
  upsets : Nat → FileOperation → Option Upset
  /-- How many operations there were. -/
  steps : Nat
  isEnded : Bool

namespace Machine

/-- A machine with an empty disk on which nothing goes wrong. -/
def blank : Machine where
  disk := .empty
  workingDir := Disk.root
  environ := .empty
  now := ⟨0⟩
  uptime := 0
  pid := 1
  isListening := false
  signals := .none
  arrivals := []
  sent := []
  errors := ""
  upsets := fun _ _ => none
  steps := 0
  isEnded := false

/-- What an ended process is told. -/
def ended : IoFault := .os 4 "Interrupted system call"

/-- Count an operation, and say whether and how it goes wrong. -/
def upset (op : FileOperation) : StateM Machine (Option Upset) := do
  let s ← get
  if s.isEnded then return some ⟨ended, 0, true⟩
  else
    let u : Option Upset := s.upsets s.steps op
    set { s with steps := s.steps + 1, isEnded := u.any Upset.isEnd }
    return u

/-- Change the disk, unless the operation goes wrong. -/
def changeDisk {α : Type} (op : FileOperation) (change : Disk → Except IoFault (α × Disk)) :
    StateM Machine (Except IoFault α) := do
  match ← upset op with
  | some u => return .error u.fault
  | none =>
    let s ← get
    match change s.disk with
    | .error fault => return .error fault
    | .ok (a, disk) =>
      set { s with disk }
      return .ok a

/-- Write to an open file.  Of a write that goes wrong a first part arrives, unless the
process had ended before. -/
def writeFile (file : OpenFile) (bytes : ByteArray) : StateM Machine Written := do
  match ← upset (.write file.path) with
  | none =>
    modifyGet fun s =>
      let (written, disk) := s.disk.write file bytes
      (written, { s with disk })
  | some u =>
    let part := bytes.extract 0 u.written
    modifyGet fun s =>
      let (written, disk) := s.disk.write file part
      (⟨written.count, some (written.fault.getD u.fault)⟩, { s with disk })

/-- Let the signals come in that are due. -/
def receive (s : Machine) : Machine :=
  match s.arrivals with
  | [] => s
  | batch :: rest =>
    { s with
      signals := batch.foldl (fun flags signal => flags.set true signal) s.signals
      arrivals := rest }

/-- Send a signal.  It arrives if it is for the process that listens. -/
def send (pid : UInt32) (signal : Signal) : StateM Machine (Except String Unit) :=
  modifyGet fun s =>
    let s := { s with sent := s.sent ++ [(pid, signal)] }
    if s.isListening ∧ pid = s.pid then
      (.ok (), { s with signals := s.signals.set true signal })
    else (.error "ESRCH: No such process", s)

instance : Host (StateM Machine) where
  File := OpenFile
  env name := do return (← get).environ.find? name
  now := do return (← get).now
  uptime := do return (← get).uptime
  pid := do return (← get).pid
  isThere path := do
    let s ← get
    return s.disk.isThere s.workingDir path
  read path := do
    let s ← get
    return s.disk.read s.workingDir path
  createDirs path := do
    match ← upset (.createDirs path) with
    | some u => return .error u.fault
    | none =>
      modifyGet fun s =>
        let (result, disk) := s.disk.createDirs s.workingDir path
        (result, { s with disk })
  openAppend path := do
    let here := (← get).workingDir
    changeDisk (.openAppend path) fun d => do
      let (file, d) ← d.openFile here path
      return ((file, d.sizeOf file), d)
  openFresh path := do
    let here := (← get).workingDir
    changeDisk (.openFresh path) fun d => do
      let (file, d) ← d.openFile here path
      return (file, d.truncate file)
  write := writeFile
  sync file := changeDisk (.sync file.path) fun d =>
    if file.number.isSome then .ok ((), d) else .error .invalidArgument
  rename source target := do
    let here := (← get).workingDir
    changeDisk (.rename source target) fun d => do
      let d ← d.rename here source target
      return ((), d)
  remove path := do
    let here := (← get).workingDir
    changeDisk (.remove path) fun d => do
      let d ← d.remove here path
      return ((), d)
  printError text := do
    match ← upset .printError with
    | some _ => return false
    | none =>
      modify fun s => { s with errors := s.errors ++ text }
      return true
  isRaised signal := modifyGet fun s =>
    let s := s.receive
    (s.signals.get signal, s)
  takeSignal signal := modifyGet fun s =>
    let s := s.receive
    (s.signals.get signal, { s with signals := s.signals.set false signal })
  kill := send
  sleep millis := modify fun s =>
    { s with
      uptime := s.uptime + millis
      now := ⟨s.now.nanos + 1000000 * millis⟩ }

end Machine

end Backlog
