import Backlog.Monitor.Document
import Backlog.Service.HealthState

/-!
# Reports for people

How the state of a daemon and a replay are shown on a terminal.
-/

namespace Backlog.Command

/-- How a word is set off. -/
inductive Style where
  | boldGreen
  | boldRed
  | green
  | red
  | yellow
  deriving DecidableEq, Repr

/-- The control sequence that begins a style. -/
def Style.start : Style → String
  | .boldGreen => "\x1b[1;32m"
  | .boldRed => "\x1b[1;31m"
  | .green => "\x1b[32m"
  | .red => "\x1b[31m"
  | .yellow => "\x1b[33m"

/-- The control sequence that ends all styles. -/
def reset : String := "\x1b[0m"

/-- Set a text off.  Where the text itself ends all styles, the style begins again. -/
def paint (colors : Bool) (style : Style) (text : String) : String :=
  if colors then style.start ++ (reset ++ style.start).intercalate (text.splitOn reset) ++ reset
  else text

/-- Whether colors are wanted, given the variables `CLICOLOR_FORCE`, `NO_COLOR` and
`CLICOLOR`: a switch to force colors comes first, then one against them, and otherwise a
terminal has colors unless they are switched off.  A variable with the text `0` is
switched off. -/
def wantsColors (force against usual : Option String) (isTerminal : Bool) : Bool :=
  if force.any (· != "0") then true
  else if against.isSome then false
  else isTerminal && usual.all (· != "0")

/-- A text with blanks after it up to a width. -/
def padRight (width : Nat) (text : String) : String :=
  text ++ String.ofList (List.replicate (width - text.length) ' ')

/-- A text with blanks before it up to a width. -/
def padLeft (width : Nat) (text : String) : String :=
  String.ofList (List.replicate (width - text.length) ' ') ++ text

/-- A line of the table of queues. -/
def tableLine (queue ready smoothed slope state : String) : String :=
  "  " ++ padRight 24 queue ++ "  " ++ padLeft 10 ready ++ "  " ++ padLeft 12 smoothed ++ "  "
    ++ padLeft 12 slope ++ "  " ++ state ++ "\n"

/-- The line of a queue with a new sample. -/
def detailLine (colors : Bool) (threshold : Float) (queue : String)
    (detail : QueueDetail Float) : String :=
  let label :=
    if Scalar.lt threshold detail.slopePercent then paint colors .red "GROWING"
    else paint colors .green "ok"
  tableLine queue (decimalText detail.lastRaw.toInt) (Scalar.twoPlaces detail.lastSmoothed)
    (Scalar.twoPlaces detail.slopePercent) label

/-- The line of a queue that was left out. -/
def skippedLine (colors : Bool) (queue reason : String) : String :=
  tableLine queue "-" "-" "-" (paint colors .yellow reason)

/-- The table of queues, if there are any. -/
def resultTable (colors : Bool) (threshold : Float) (r : MonitorResult Float) : String :=
  if r.details.entries.isEmpty && r.skipped.entries.isEmpty then ""
  else
    "\n" ++ tableLine "Queue" "Ready" "Smoothed" "Slope" (padRight 8 "State")
      ++ "  " ++ String.ofList (List.replicate 74 '-') ++ "\n"
      ++ String.join (r.details.entries.map fun e => detailLine colors threshold e.1 e.2)
      ++ String.join (r.skipped.entries.map fun e => skippedLine colors e.1 e.2)

/-- The health in a word. -/
def verdict (colors healthy : Bool) : String :=
  if healthy then paint colors .boldGreen "HEALTHY" else paint colors .boldRed "UNHEALTHY"

/-- The state of a daemon. -/
def statusReport (colors : Bool) (threshold : Float) (s : HealthState) (isStale : Bool) :
    String :=
  "Queue Growth Monitor v" ++ s.version ++ "\n"
    ++ "  Daemon: pid " ++ toString s.pid ++ " since " ++ s.startedAt ++ "\n"
    ++ "  Updated: " ++ s.lastUpdated ++ (if isStale then " (stale)" else "") ++ "\n"
    ++ "  Check: " ++ s.status.name ++ "  Ticks: " ++ toString s.ticks ++ "\n"
    ++ "  Health: " ++ verdict colors s.result.healthy ++ "  " ++ s.result.message ++ "\n"
    ++ resultTable colors threshold s.result

/-- A replay. -/
def replayReport (colors : Bool) (threshold : Float) (r : ReplayReport Float) : String :=
  "Replayed " ++ toString r.samples ++ " sample(s) in " ++ toString r.rounds ++ " round(s); "
    ++ toString r.unhealthyRounds ++ " unhealthy round(s).\n"
    ++ (match r.firstUnhealthyAt with
        | some timestamp =>
          "  First unhealthy at timestamp " ++ decimalText timestamp.toInt ++ "\n"
        | none => "")
    ++ "  Final: " ++ verdict colors r.result.healthy ++ "  " ++ r.result.message ++ "\n"
    ++ resultTable colors threshold r.result

/-- What can be said on the command line. -/
def helpText : String :=
  "Usage: qgm [--config <PATH>] [--json] [--no-color] <COMMAND>\n\nCommands:\n"
    ++ "  daemon                   watch the queues until asked to end\n"
    ++ "  status                   show the state of the daemon\n"
    ++ "  activate                 let growth count as unhealthy\n"
    ++ "  deactivate               let growth not count\n"
    ++ "  replay [--active] <FILE> replay a sample log\n"
    ++ "  config [path]            show where the settings are read\n"
    ++ "  config show              show the settings\n"
    ++ "  config validate          check the settings\n"
    ++ "  completions <SHELL>      print a script that completes command names\n"

end Backlog.Command
