import Backlog.Calendar
import Backlog.Host.Basic
import Backlog.Json.Decode
import Backlog.Source

/-!
# The spool document

The queue host keeps rewriting one JSON document with the counts of its queues.  A queue
that is missing there, or has null for a count, cannot report one.  A document without a
time stamp counts as of the moment it is read.
-/

namespace Backlog

/-- The counts of all queues at a time. -/
structure SpoolDocument where
  timestamp : Option Int64
  queues : Table (Option Int64)

namespace SpoolDocument

/-- The document that a JSON value is.  Both fields may be left out. -/
def ofJson? (v : Json) : Option SpoolDocument := do
  let fields ← v.asFields ["timestamp_millis", "queues"]
  let timestamp ← fields.orElse "timestamp_millis" none (Json.asOptional Json.asInt64)
  let queues ← fields.orElse "queues" .empty (Json.asTable (Json.asOptional Json.asInt64))
  return ⟨timestamp, queues⟩

variable {m : Type → Type} [Monad m] [Host m]

/-- The document at a path, or why there is none. -/
def load (path : String) : m (Except String SpoolDocument) := do
  match ← Host.readText path with
  | .error fault => return .error ("cannot read spool " ++ path ++ ": " ++ fault.message)
  | .ok text =>
    match (Json.ofText? text).bind ofJson? with
    | some doc => return .ok doc
    | none => return .error ("invalid spool " ++ path ++ ": " ++ Json.faultText)

/-- The sample of a queue in the document at a path. -/
def sample (path queue : String) : m (Except SourceFault Sample) := do
  match ← load path with
  | .error details => return .error (.unavailable details)
  | .ok doc =>
    match doc.queues.find? queue with
    | some (some ready) =>
      match doc.timestamp with
      | some timestamp => return .ok ⟨timestamp, ready⟩
      | none => return .ok ⟨Int64.ofInt (Calendar.millis (← Host.now)), ready⟩
    | _ => return .error .unsupported

end SpoolDocument

/-- A source that is asked anew in every round. -/
structure Source (m : Type → Type) where
  queue : String
  sample : m (Except SourceFault Sample)

/-- Ask a source. -/
def Source.read {m : Type → Type} [Monad m] (s : Source m) : m Reading := do
  return ⟨s.queue, ← s.sample⟩

/-- The sources of some queues in the document at a path. -/
def spoolSources {m : Type → Type} [Monad m] [Host m] (queues : List String) (path : String) :
    List (Source m) :=
  queues.map fun queue => ⟨queue, SpoolDocument.sample path queue⟩

end Backlog
