import Backlog.Activity.Entry
import Backlog.Calendar
import Backlog.Host.Basic
import Backlog.Host.Path

/-!
# Writing the activity log

Lines are appended to a file through a buffer.  When the file would grow beyond its
largest size, it is put aside under a number and a fresh one is started; the files put
aside move up one number each, and the last of them goes.

When a file cannot be written, the writer steps down: from the file to the fallback file,
from there to the error stream, and at last it drops its lines.  It never stops the
program.
-/

namespace Backlog

/-- Where a log is written, and when files are changed and stored. -/
structure LogSettings where
  path : String
  /-- The file that is used when the first one fails. -/
  fallback : Option String
  /-- The largest size of a file in bytes. -/
  maxSize : Nat
  /-- How many files are kept aside. -/
  maxRotated : Nat
  /-- Seconds after which what was written is stored safely. -/
  syncSeconds : Nat
  deriving DecidableEq, Repr

/-- A log at a path with the usual limits, and no fallback. -/
def LogSettings.at (path : String) : LogSettings :=
  ⟨path, none, 50 * 1024 * 1024, 3, 10⟩

/-- An open file and the bytes that still wait to be written to it. -/
structure BufferedFile (F : Type) where
  file : F
  pending : ByteArray

namespace BufferedFile

variable {m : Type → Type} [Monad m] [Host m]

/-- How many bytes may wait. -/
def capacity : Nat := 65536

/-- Write what waits.  If that fails, the bytes that were not written keep waiting. -/
def flush (b : BufferedFile (Host.File m)) : m (Bool × BufferedFile (Host.File m)) := do
  if b.pending.isEmpty then return (true, b)
  else
    let written ← Host.write b.file b.pending
    match written.fault with
    | none => return (true, { b with pending := .empty })
    | some _ =>
      return (false, { b with pending := b.pending.extract written.count b.pending.size })

/-- Write bytes for which room was made: behind those that wait, or straight to the file
if the buffer cannot hold them. -/
def put (b : BufferedFile (Host.File m)) (bytes : ByteArray) :
    m (Bool × BufferedFile (Host.File m)) := do
  if capacity ≤ bytes.size then
    let written ← Host.write b.file bytes
    return (written.fault.isNone, b)
  else return (true, { b with pending := b.pending ++ bytes })

/-- Write bytes.  They wait as long as there is room for them; bytes that the buffer
cannot hold at all go straight to the file. -/
def write (b : BufferedFile (Host.File m)) (bytes : ByteArray) :
    m (Bool × BufferedFile (Host.File m)) := do
  let room := capacity - b.pending.size
  if bytes.size ≤ room then put b bytes
  else
    match ← b.flush with
    | (true, b) => put b bytes
    | (false, b) => return (false, b)

end BufferedFile

/-- Where lines go. -/
inductive LogSink (F : Type) where
  /-- A file, with its size including the bytes that wait. -/
  | file (buffer : BufferedFile F) (path : String) (bytes : Nat) (isFallback : Bool)
  | errorStream
  | discard

/-- A writer of a log. -/
structure LogWriter (F : Type) where
  settings : LogSettings
  sink : LogSink F
  /-- When what was written was last stored safely. -/
  lastSync : Instant

namespace LogWriter

/-- How far a writer has stepped down. -/
def state {F : Type} (w : LogWriter F) : String :=
  match w.sink with
  | .file _ _ _ false => "normal"
  | .file _ _ _ true => "fallback"
  | .errorStream => "stderr"
  | .discard => "discard"

/-- The size of the file that is written. -/
def bytesWritten {F : Type} (w : LogWriter F) : Nat :=
  match w.sink with
  | .file _ _ bytes _ => bytes
  | _ => 0

/-- The mark of lines on the error stream. -/
def mark : String := "[QGM-JSONL] "

variable {m : Type → Type} [Monad m] [Host m]

/-- Open a file for appending, if it and its directory can be had. -/
def openSink (path : String) (isFallback : Bool) : m (Option (LogSink (Host.File m))) := do
  let directory : Except IoFault Unit ←
    match Path.parent? path with
    | some parent => Host.createDirs parent
    | none => pure (.ok ())
  match directory with
  | .error _ => return none
  | .ok () =>
    match ← Host.openAppend path with
    | .error _ => return none
    | .ok (file, size) => return some (.file ⟨file, .empty⟩ path size isFallback)

/-- Open the fallback file, if there is one. -/
def openFallback (settings : LogSettings) : m (Option (LogSink (Host.File m))) :=
  match settings.fallback with
  | some path => openSink path true
  | none => pure none

/-- Open a log as high up as possible. -/
def start (settings : LogSettings) : m (LogWriter (Host.File m)) := do
  let sink : LogSink (Host.File m) ←
    match ← openSink settings.path false with
    | some sink => pure sink
    | none =>
      match ← openFallback settings with
      | some sink =>
        Host.warn (mark ++ "primary path failed, using fallback: "
          ++ settings.fallback.getD "")
        pure sink
      | none =>
        Host.warn (mark ++ "no writable log path, using stderr")
        pure .errorStream
  return ⟨settings, sink, ← Host.now⟩

/-- Write what waits, also if that fails. -/
def flushSink (sink : LogSink (Host.File m)) : m (LogSink (Host.File m)) := do
  match sink with
  | .file buffer path bytes isFallback =>
    let (_, buffer) ← buffer.flush
    return .file buffer path bytes isFallback
  | sink => return sink

/-- Close what lines went to.  What still waits is written if possible. -/
def close (sink : LogSink (Host.File m)) : m Unit := do
  let _ ← flushSink sink

/-- Write what waits. -/
def flush (w : LogWriter (Host.File m)) : m (LogWriter (Host.File m)) := do
  return { w with sink := ← flushSink w.sink }

/-- Write what waits and have it stored safely. -/
def sync (w : LogWriter (Host.File m)) : m (LogWriter (Host.File m)) := do
  let w ← w.flush
  match w.sink with
  | .file buffer _ _ _ =>
    let _ ← Host.sync buffer.file
  | _ => pure ()
  return { w with lastSync := ← Host.now }

/-- Have what was written stored safely if that was long ago. -/
def syncIfDue (w : LogWriter (Host.File m)) : m (LogWriter (Host.File m)) := do
  let now ← Host.now
  let elapsed := (max 0 (now.nanos - w.lastSync.nanos)).toNat / Calendar.second
  if w.settings.syncSeconds ≤ elapsed then w.sync else return w

/-- Go back to the first file if it can be opened again. -/
def tryRecover (w : LogWriter (Host.File m)) : m (LogWriter (Host.File m)) := do
  match w.sink with
  | .file _ _ _ false => return w
  | _ =>
    match ← openSink w.settings.path false with
    | none => return w
    | some sink =>
      let w ← w.flush
      close w.sink
      Host.warn (mark ++ "recovered to primary path: " ++ w.settings.path)
      return { w with sink }

/-- Step down. -/
def degrade (w : LogWriter (Host.File m)) : m (LogWriter (Host.File m)) := do
  let next : LogSink (Host.File m) ←
    match w.sink with
    | .file _ _ _ false =>
      match ← openFallback w.settings with
      | some sink => pure sink
      | none => pure .errorStream
    | .file _ _ _ true => pure .errorStream
    | .errorStream | .discard => pure .discard
  Host.warn (mark ++ "write failed, degrading")
  close w.sink
  return { w with sink := next }

/-- The path of a file that was put aside. -/
def rotatedName (path : String) (number : Nat) : String := path ++ "." ++ toString number

/-- Move the files put aside up by one number each, from the highest number down. -/
def shift (path : String) : Nat → m Unit
  | 0 => pure ()
  | n + 1 => do
    let _ ← Host.rename (rotatedName path (n + 1)) (rotatedName path (n + 2))
    shift path n

/-- Put the file aside and start a fresh one. -/
def rotate (w : LogWriter (Host.File m)) : m (LogWriter (Host.File m)) := do
  let w ← w.flush
  match w.sink with
  | .file _ path _ isFallback =>
    close w.sink
    let keep := max w.settings.maxRotated 1
    let _ ← Host.remove (rotatedName path keep)
    shift path (keep - 1)
    let _ ← Host.rename path (rotatedName path 1)
    match ← openSink path isFallback with
    | some sink => return { w with sink }
    | none =>
      Host.warn (mark ++ "reopen after rotation failed")
      return { w with sink := .errorStream }
  | _ => return w

/-- Put the file aside if a line would make it too large. -/
def rotateIfDue (w : LogWriter (Host.File m)) (size : Nat) :
    m (LogWriter (Host.File m)) := do
  match w.sink with
  | .file _ _ bytes _ => if w.settings.maxSize < bytes + size then w.rotate else return w
  | _ => return w

/-- Write a line to where lines go now; says whether it is done with. -/
def attempt (w : LogWriter (Host.File m)) (line : String) :
    m (Bool × LogWriter (Host.File m)) := do
  let w ← w.rotateIfDue line.utf8ByteSize
  match w.sink with
  | .file buffer path bytes isFallback =>
    match ← buffer.write line.toUTF8 with
    | (true, buffer) =>
      let w := { w with sink := .file buffer path (bytes + line.utf8ByteSize) isFallback }
      return (true, ← w.syncIfDue)
    | (false, buffer) => return (false, { w with sink := .file buffer path bytes isFallback })
  | .errorStream =>
    if ← Host.printError (mark ++ line) then return (true, w)
    else return (true, { w with sink := .discard })
  | .discard => return (true, w)

/-- Write a line, stepping down at most so many times. -/
def writeLine (line : String) : Nat → LogWriter (Host.File m) → m (LogWriter (Host.File m))
  | 0, w => do
    let (_, w) ← w.attempt line
    return w
  | steps + 1, w => do
    match ← w.attempt line with
    | (true, w) => return w
    | (false, w) =>
      let w ← w.degrade
      writeLine line steps w

/-- The files that a line can be refused by: the first one and the fallback. -/
def fileCount : Nat := 2

/-- Write an entry as a line. -/
def writeEntry (w : LogWriter (Host.File m)) (entry : LogEntry) :
    m (LogWriter (Host.File m)) :=
  writeLine (entry.line ++ "\n") fileCount w

end LogWriter

end Backlog
