import Backlog.Number.Reading
import Backlog.Settings

/-!
# Overriding settings by variables

Each of fourteen variables stands for one setting.  A variable that is set and not blank
replaces the value of its setting; one that cannot be read is a fault.
-/

namespace Backlog

/-- What the text of a variable does to the settings. -/
structure Override where
  /-- The name of the variable. -/
  name : String
  apply : String → Settings → Except String Settings

namespace Override

/-- Whole numbers fit 64 bits. -/
def maxWhole : Nat := twoTo 64 - 1

/-- A whole number with blanks around it. -/
def readWhole (text : String) : Except String Nat :=
  match Backlog.readWhole maxWhole (Text.trim text).toList with
  | .ok n => .ok n
  | .error fault => .error fault.message

/-- A number with blanks around it. -/
def readNumber (text : String) : Except String Float :=
  match readDouble (Text.trim text) with
  | some x => .ok x
  | none => .error "invalid float literal"

/-- A truth value with blanks around it. -/
def readBool (text : String) : Except String Bool :=
  let name := Text.trim text
  if name = "true" then .ok true
  else if name = "false" then .ok false
  else .error "provided string was not `true` or `false`"

/-- A smoothing mode. -/
def readMode (text : String) : Except String SmoothingMode :=
  match SmoothingMode.read text with
  | .ok mode => .ok mode
  | .error cause => .error (Fault.invalidConfig cause).message

/-- An override of a setting of the monitor. -/
def monitor {β : Type} (name : String) (read : String → Except String β)
    (put : β → MonitorSettings Float → MonitorSettings Float) : Override where
  name := "QGM_MONITOR_" ++ name
  apply text s := do
    let b ← read text
    return { s with monitor := put b s.monitor }

/-- An override of a setting of the smoother. -/
def smoothing {β : Type} (name : String) (read : String → Except String β)
    (put : β → SmoothingSettings Float → SmoothingSettings Float) : Override where
  name := "QGM_SMOOTHING_" ++ name
  apply text s := do
    let b ← read text
    return { s with monitor := { s.monitor with smoothing := put b s.monitor.smoothing } }

/-- An override of a setting of the sources. -/
def sources (name : String) (put : String → SourceSettings → SourceSettings) : Override where
  name := "QGM_SOURCES_" ++ name
  apply text s := .ok { s with sources := put text s.sources }

/-- An override of a path. -/
def paths (name : String) (put : String → PathSettings → PathSettings) : Override where
  name := "QGM_PATHS_" ++ name
  apply text s := .ok { s with paths := put text s.paths }

/-- All overrides, in the order in which they are looked at. -/
def all : List Override := [
  monitor "WINDOW_SIZE" readWhole fun n s => { s with windowSize := n },
  monitor "GROWTH_THRESHOLD" readNumber fun x s => { s with growthThreshold := x },
  monitor "SLOPE_SCALE" readNumber fun x s => { s with slopeScale := x },
  monitor "POLL_INTERVAL_MS" readWhole fun n s => { s with pollIntervalMs := n },
  monitor "START_ACTIVE" readBool fun b s => { s with startActive := b },
  smoothing "MODE" readMode fun mode s => { s with mode },
  smoothing "ALPHA" readNumber fun x s => { s with alpha := x },
  smoothing "BETA" readNumber fun x s => { s with beta := x },
  smoothing "GAMMA" readNumber fun x s => { s with gamma := x },
  smoothing "PERIOD" readWhole fun n s => { s with period := n },
  sources "SPOOL_FILE" fun text s => { s with spoolFile := text },
  sources "QUEUES" fun text s => { s with queues := text.splitOn "," },
  paths "STATE_FILE" fun text s => { s with stateFile := text },
  paths "JSONL_LOG" fun text s => { s with jsonlLog := text }]

/-- Apply an override if its variable is set. -/
def applyTo (o : Override) (lookup : String → Option String) (s : Settings) :
    Except Fault Settings :=
  match lookup o.name with
  | none => .ok s
  | some text =>
    match o.apply text s with
    | .ok s => .ok s
    | .error details =>
      .error (.configParse "env" (o.name ++ "=" ++ Text.quoted text ++ ": " ++ details))

end Override

/-- The settings after all overrides. -/
def Settings.override (lookup : String → Option String) (s : Settings) :
    Except Fault Settings :=
  Override.all.foldlM (fun s o => o.applyTo lookup s) s

end Backlog
