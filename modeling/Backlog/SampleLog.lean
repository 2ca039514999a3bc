import Backlog.Fault
import Backlog.Host.Basic
import Backlog.Json.Decode
import Backlog.Text.Blank
import Backlog.Text.Lines

/-!
# Sample logs

A sample log holds one sample to a line, as a JSON object.  Blank lines and lines that
start with a number sign say nothing.
-/

namespace Backlog

/-- A sample as it was logged. -/
structure SampleRecord where
  queue : String
  timestamp : Int64
  /-- Nothing if the queue could not report a count. -/
  ready : Option Int64
  deriving DecidableEq, Repr

namespace SampleRecord

/-- The count as JSON. -/
def readyJson : Option Int64 → Json
  | some n => .int n.toInt
  | none => .null

/-- A record as JSON. -/
def toJson (r : SampleRecord) : Json :=
  .object [("queue", .string r.queue), ("timestamp_millis", .int r.timestamp.toInt),
    ("ready_entries", readyJson r.ready)]

/-- The record that a JSON value is. -/
def ofJson? (v : Json) : Option SampleRecord := do
  let fields ← v.asFields ["queue", "timestamp_millis", "ready_entries"]
  let queue ← fields.required "queue" Json.asString
  let timestamp ← fields.required "timestamp_millis" Json.asInt64
  let ready ← fields.optional "ready_entries" Json.asInt64
  return ⟨queue, timestamp, ready⟩

end SampleRecord

namespace SampleLog

/-- What a line says: nothing, or a record if it can be read. -/
def readLine (line : String) : Except String (Option SampleRecord) :=
  let text := Text.trim line
  if text.isEmpty || text.startsWith "#" then .ok none
  else
    match (Json.ofText? text).bind SampleRecord.ofJson? with
    | some record => .ok (some record)
    | none => .error Json.faultText

/-- The records of a row of lines, of which the first one has the given number. -/
def readLines (number : Nat) : List (List UInt8) → Except Fault (List SampleRecord)
  | [] => .ok []
  | bytes :: rest =>
    match Text.ofBytes? bytes with
    | none => .error (.sampleParse number IoFault.notText.message)
    | some line =>
      match readLine line with
      | .error details => .error (.sampleParse number details)
      | .ok none => readLines (number + 1) rest
      | .ok (some record) => do
        let records ← readLines (number + 1) rest
        return record :: records

/-- The records of a log. -/
def ofBytes (bytes : ByteArray) : Except Fault (List SampleRecord) :=
  readLines 1 (Text.byteLines bytes)

/-- The records of the log in a file. -/
def load {m : Type → Type} [Monad m] [Host m] (path : String) :
    m (Except Fault (List SampleRecord)) := do
  match ← Host.read path with
  | .ok bytes => return ofBytes bytes
  | .error fault =>
    -- A directory can be opened, but has no first line.
    if fault = .isDirectory then return .error (.sampleParse 1 fault.message)
    else return .error (.io path fault.message)

end SampleLog

end Backlog
