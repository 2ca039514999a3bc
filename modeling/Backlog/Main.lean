import Backlog.Command.Run
import Std.Async.Signal
import Std.Time.DateTime.Timestamp

/-!
# The program

The real system as a host, and the command line on it.  Signals are followed in the
background while a daemon runs.  This system offers no way to send one.
-/

namespace Backlog.Program

/-- The signals that have arrived and were not taken yet. -/
structure Flags where
  shutdown : IO.Ref Bool
  reload : IO.Ref Bool
  activate : IO.Ref Bool
  deactivate : IO.Ref Bool

/-- The flag of a signal. -/
def Flags.get (f : Flags) : Signal → IO.Ref Bool
  | .shutdown => f.shutdown
  | .reload => f.reload
  | .activate => f.activate
  | .deactivate => f.deactivate

/-- Computations on the real system. -/
abbrev Real := ReaderT Flags IO

/-- The refusal that an error of the system stands for. -/
def faultOf : IO.Error → IoFault
  | .alreadyExists _ code wording | .invalidArgument _ code wording
  | .permissionDenied _ code wording | .resourceExhausted _ code wording
  | .inappropriateType _ code wording | .noSuchThing _ code wording => .os code.toNat wording
  | .interrupted _ code wording | .noFileOrDirectory _ code wording => .os code.toNat wording
  | .otherError code wording | .resourceBusy code wording | .resourceVanished code wording
  | .unsupportedOperation code wording | .hardwareFault code wording
  | .unsatisfiedConstraints code wording | .illegalOperation code wording
  | .protocolError code wording | .timeExpired code wording => .os code.toNat wording
  | .unexpectedEof => .os 5 "Input/output error"
  | .userError wording => .os 5 wording

/-- Do something, and say why the system refused it. -/
def attempt {α : Type} (act : IO α) : Real (Except IoFault α) := do
  match ← EIO.toBaseIO act with
  | .ok a => return .ok a
  | .error e => return .error (faultOf e)

/-- Whether something can be done. -/
def succeeds {α : Type} (act : IO α) : Real Bool := do
  return (← EIO.toBaseIO act) matches .ok _

/-- The number of the running process; zero if the system does not say. -/
def processNumber : IO UInt32 := do
  match ← EIO.toBaseIO (IO.FS.realPath "/proc/self") with
  | .ok path => return UInt32.ofNat ((path.fileName.bind String.toNat?).getD 0)
  | .error _ => return 0

/-- The time of day. -/
def timeOfDay : IO Instant := do
  return ⟨(← Std.Time.Timestamp.now).toNanosecondsSinceUnixEpoch.val⟩

/-- The size of a file. -/
def sizeOf (path : String) : IO Nat := do
  let place ← IO.FS.realPath path
  return (← place.metadata).byteSize.toNat

instance : Host Real where
  File := IO.FS.Handle
  env name := IO.getEnv name
  now := timeOfDay
  uptime := IO.monoMsNow
  pid := processNumber
  isThere path := succeeds (IO.FS.realPath path)
  read path := attempt (IO.FS.readBinFile path)
  createDirs path := attempt (if path.isEmpty then pure () else IO.FS.createDirAll path)
  openAppend path := attempt do
    let file ← IO.FS.Handle.mk path .append
    return (file, ← sizeOf path)
  openFresh path := attempt (IO.FS.Handle.mk path .write)
  write file bytes := do
    match ← attempt (do file.write bytes; file.flush) with
    | .ok () => return ⟨bytes.size, none⟩
    | .error fault => return ⟨0, some fault⟩
  sync file := attempt file.flush
  rename source target := attempt (IO.FS.rename source target)
  remove path := attempt (IO.FS.removeFile path)
  printError text := succeeds do (← IO.getStderr).putStr text
  isRaised signal := do ((← read).get signal).get
  takeSignal signal := do ((← read).get signal).modifyGet fun raised => (raised, false)
  kill _ _ := return .error "signalling the daemon requires a Unix platform"
  sleep millis := IO.sleep (UInt32.ofNat millis)

/-- Raise a flag whenever a signal arrives. -/
partial def follow (waiter : Std.Async.Signal.Waiter) (flag : IO.Ref Bool) : IO Unit := do
  let arrival ← waiter.wait
  let _ ← arrival.block
  flag.set true
  follow waiter flag

/-- Follow a signal in the background. -/
def listen (name : String) (signal : Std.Async.Signal) (flag : IO.Ref Bool) : Real Unit := do
  match ← attempt (Std.Async.Signal.Waiter.mk signal true) with
  | .ok waiter =>
    let _ ← IO.asTask (follow waiter flag) .dedicated
  | .error fault => Host.warn ("[QGM-SIGNAL] failed to register " ++ name ++ ": " ++ fault.message)

/-- Follow all signals that a daemon answers. -/
def listenAll : Real Unit := do
  let flags ← read
  listen "SIGTERM" .sigterm flags.shutdown
  listen "SIGINT" .sigint flags.shutdown
  listen "SIGHUP" .sighup flags.reload
  listen "SIGUSR1" .sigusr1 flags.activate
  listen "SIGUSR2" .sigusr2 flags.deactivate

/-- Run rounds until the session is to end. -/
partial def serveRounds (s : Session Real) : Real (Session Real) := do
  match ← s.round with
  | (false, s) => return s
  | (true, s) => serveRounds s

/-- Run a session from the announcement to the end. -/
def serve (s : Session Real) : Real Unit := do
  listenAll
  let s ← s.step Daemon.announce
  let s ← serveRounds s
  let _ ← s.finish

/-- What is printed for a command line that leads to no action. -/
def printUsage (usage : Command.Usage) : IO Unit := do
  match usage with
  | .version => IO.println ("qgm " ++ version)
  | .help => IO.print Command.helpText
  | _ => IO.eprint Command.helpText

/-- Where the program prints. -/
def terminal : IO Command.Terminal := do
  let isInteractive ← (← IO.getStdout).isTty
  let force ← IO.getEnv "CLICOLOR_FORCE"
  let against ← IO.getEnv "NO_COLOR"
  let usual ← IO.getEnv "CLICOLOR"
  return ⟨isInteractive, Command.wantsColors force against usual isInteractive⟩

/-- Do what an invocation asks for, and give the exit code. -/
def runInvocation (invocation : Command.Invocation) : IO UInt32 := do
  let flag : IO (IO.Ref Bool) := IO.mkRef false
  let flags : Flags := ⟨← flag, ← flag, ← flag, ← flag⟩
  let o ← (Command.run serve invocation (← terminal)).run flags
  IO.print o.output
  match o.failure with
  | some failure => IO.eprintln ("qgm: " ++ failure.message)
  | none => pure ()
  return o.exitCode

end Backlog.Program

/-- Run the command line. -/
def main (words : List String) : IO UInt32 := do
  match Backlog.Command.read words with
  | .error usage =>
    Backlog.Program.printUsage usage
    return usage.exitCode
  | .ok invocation => Backlog.Program.runInvocation invocation
