import Backlog.Command.Line
import Backlog.Command.Report
import Backlog.Service.Session

/-!
# Running a command

What each action of the command line does and prints, and with what exit code it fails.
-/

namespace Backlog.Command

/-- Why a command failed. -/
inductive Failure where
  /-- What the user gave cannot be used. -/
  | user (message : String)
  /-- The daemon is unhealthy, or there is none. -/
  | unhealthy (message : String)
  /-- The system got in the way. -/
  | runtime (message : String)
  deriving DecidableEq, Repr

namespace Failure

/-- The failure that a fault leads to. -/
def ofFault (f : Fault) : Failure :=
  match f with
  | .invalidConfig .. | .missingConfig .. | .configParse .. | .sampleParse .. => .user f.message
  | _ => .runtime f.message

/-- The wording of a failure. -/
def message : Failure → String
  | .user message | .runtime message => message
  | .unhealthy message => "unhealthy: " ++ message

/-- The exit code of a failure. -/
def exitCode : Failure → UInt32
  | .user _ | .unhealthy _ => 1
  | .runtime _ => 2

end Failure

/-- What a command printed, and how it ended. -/
structure Outcome where
  output : String
  failure : Option Failure
  deriving DecidableEq, Repr

namespace Outcome

/-- A command that succeeded. -/
def ok (output : String) : Outcome := ⟨output, none⟩

/-- A command that failed without printing anything. -/
def failed (f : Failure) : Outcome := ⟨"", some f⟩

/-- A command that failed because of a fault. -/
def ofFault (f : Fault) : Outcome := failed (.ofFault f)

/-- The exit code of a command. -/
def exitCode (o : Outcome) : UInt32 :=
  match o.failure with
  | some f => f.exitCode
  | none => 0

end Outcome

/-- Where a command prints. -/
structure Terminal where
  /-- Whether a person reads along. -/
  isInteractive : Bool
  /-- Whether colors are wanted. -/
  colors : Bool
  deriving DecidableEq, Repr

/-- For whom output is meant. -/
inductive OutputMode where
  | human
  | json
  deriving DecidableEq, Repr

/-- The output mode: as the option says, as the variable says, as fits the terminal. -/
def outputMode (jsonOption : Bool) (wanted : Option String) (isInteractive : Bool) :
    OutputMode :=
  if jsonOption then .json
  else
    match wanted.map fun text => (Text.trim text).map Char.toLower with
    | some "json" => .json
    | some "human" => .human
    | _ => if isInteractive then .human else .json

/-- A JSON value with the members of its objects in order, as a line. -/
def jsonLine (members : List (String × Json)) : String :=
  (Json.object members).sorted.compact ++ "\n"

/-- A script that completes the names of the commands. -/
def completionScript (shell : Shell) : String :=
  let words := " ".intercalate (Level.program.commands.map (·.1) ++ ["help"])
  match shell with
  | .bash => "complete -W '" ++ words ++ "' qgm\n"
  | .elvish => "set edit:completion:arg-completer[qgm] = \x7b|@words| put " ++ words ++ " \x7d\n"
  | .fish => "complete -c qgm -f -a '" ++ words ++ "'\n"
  | .powershell =>
    "Register-ArgumentCompleter -Native -CommandName qgm -ScriptBlock \x7b '" ++ words
      ++ "' -split ' ' \x7d\n"
  | .zsh => "compctl -k '(" ++ words ++ ")' qgm\n"

variable {m : Type → Type} [Monad m] [Host m]

/-- The output mode of an invocation. -/
def modeOf (i : Invocation) (terminal : Terminal) : m OutputMode := do
  return outputMode i.json (← Host.env "QGM_OUTPUT_FORMAT") terminal.isInteractive

/-- Whether an invocation prints in colors. -/
def colorsOf (i : Invocation) (terminal : Terminal) : Bool := terminal.colors && !i.noColor

/-- How a state fares: unhealthy if it is stale, or if its result is. -/
def judge (s : HealthState) (isStale : Bool) : Option Failure :=
  if isStale then
    some (.unhealthy
      ("state file stale since " ++ s.lastUpdated ++ "; daemon may have stopped"))
  else if s.result.healthy then none
  else some (.unhealthy s.result.message)

/-- Show the state of the daemon. -/
def runStatus (i : Invocation) (terminal : Terminal) : m Outcome := do
  match ← Settings.load i.config with
  | .error fault => return .ofFault fault
  | .ok settings =>
    let interval := settings.monitor.pollIntervalMs
    match ← HealthState.load settings.paths.stateFile interval with
    | .error fault => return .failed (.unhealthy fault.message)
    | .ok s =>
      let isStale := s.isStale (← Host.now) interval
      let output :=
        match ← modeOf i terminal with
        | .human =>
          statusReport (colorsOf i terminal) settings.monitor.growthThreshold s isStale
        | .json =>
          jsonLine [("command", .string "status"), ("stale", .bool isStale),
            ("state", s.toJson)]
      return ⟨output, judge s isStale⟩

/-- Send a signal to a daemon.  Process numbers beyond the signed range would mean groups of
processes. -/
def signalDaemon (pid : UInt32) (signal : Signal) : m (Except Fault Unit) := do
  if twoTo 31 ≤ pid.toNat then return .error (.signal pid "pid out of range")
  else
    match ← Host.kill pid signal with
    | .ok () => return .ok ()
    | .error details => return .error (.signal pid details)

/-- Ask the daemon to switch the check on or off. -/
def runToggle (i : Invocation) (terminal : Terminal) (signal : Signal) (name : String) :
    m Outcome := do
  match ← Settings.load i.config with
  | .error fault => return .ofFault fault
  | .ok settings =>
    let interval := settings.monitor.pollIntervalMs
    match ← HealthState.load settings.paths.stateFile interval with
    | .error fault => return .ofFault fault
    | .ok s =>
      match s.signalTarget (← Host.now) interval with
      | .error fault => return .ofFault fault
      | .ok pid =>
        match ← signalDaemon pid signal with
        | .error fault => return .ofFault fault
        | .ok () =>
          match ← modeOf i terminal with
          | .human =>
            return .ok ("Requested " ++ name ++ " from daemon pid " ++ toString pid ++ ".\n")
          | .json =>
            return .ok (jsonLine [("command", .string name), ("pid", .int pid.toNat),
              ("sent", .bool true)])

/-- Replay a sample log. -/
def runReplay (i : Invocation) (terminal : Terminal) (file : String) (active : Bool) :
    m Outcome := do
  match ← Settings.load i.config with
  | .error fault => return .ofFault fault
  | .ok settings =>
    match ← SampleLog.load file with
    | .error fault => return .ofFault fault
    | .ok records =>
      match replay settings.monitor records (active || settings.monitor.startActive) with
      | .error cause => return .ofFault (.invalidConfig cause)
      | .ok report =>
        match ← modeOf i terminal with
        | .human =>
          return .ok
            (replayReport (colorsOf i terminal) settings.monitor.growthThreshold report)
        | .json =>
          return .ok (jsonLine [("command", .string "replay"), ("file", .string file),
            ("report", report.toJson)])

/-- Show where the settings are read. -/
def runConfigPath (i : Invocation) (terminal : Terminal) : m Outcome := do
  let path ←
    match i.config with
    | some path => pure path
    | none => Settings.standardPath
  let isThere ← Host.isThere path
  match ← modeOf i terminal with
  | .human =>
    return .ok (path ++ "\n"
      ++ (if isThere then "" else "  (file does not exist; defaults will be used)\n"))
  | .json =>
    return .ok (jsonLine [("command", .string "config path"), ("path", .string path),
      ("exists", .bool isThere)])

/-- Show the settings. -/
def runConfigShow (i : Invocation) (terminal : Terminal) : m Outcome := do
  match ← Settings.load i.config with
  | .error fault => return .ofFault fault
  | .ok settings =>
    match ← modeOf i terminal with
    | .human =>
      match settings.toToml with
      | .error fault => return .ofFault fault
      | .ok text => return .ok (text ++ "\n")
    | .json =>
      return .ok (jsonLine [("command", .string "config show"), ("config", settings.toJson)])

/-- Check the settings. -/
def runConfigValidate (i : Invocation) (terminal : Terminal) : m Outcome := do
  let loaded ← Settings.load i.config
  let mode ← modeOf i terminal
  match loaded, mode with
  | .error fault, .human => return .ofFault fault
  | .error fault, .json =>
    return ⟨jsonLine [("command", .string "config validate"), ("valid", .bool false),
      ("code", .string fault.code), ("error", .string fault.message)], some (.ofFault fault)⟩
  | .ok settings, .human =>
    return .ok ("Configuration is valid.\n  Source: " ++ settings.paths.configFile
      ++ "\n  Hash: " ++ settings.fingerprint ++ "\n")
  | .ok settings, .json =>
    return .ok (jsonLine [("command", .string "config validate"), ("valid", .bool true),
      ("path", .string settings.paths.configFile), ("hash", .string settings.fingerprint)])

/-- Open a session over the sources that the settings name. -/
def startDaemon (i : Invocation) : m (Except Fault (Session m)) := do
  match ← Settings.load i.config with
  | .error fault => return .error fault
  | .ok settings => Session.start settings (Daemon.sourcesOf settings)

/-- Do what an invocation asks for.  How long a session runs is up to `serve`. -/
def run (serve : Session m → m Unit) (i : Invocation) (terminal : Terminal) : m Outcome := do
  match i.action with
  | .daemon =>
    match ← startDaemon i with
    | .error fault => return .ofFault fault
    | .ok session =>
      serve session
      return .ok ""
  | .status => runStatus i terminal
  | .activate => runToggle i terminal .activate "activate"
  | .deactivate => runToggle i terminal .deactivate "deactivate"
  | .replay file active => runReplay i terminal file active
  | .configPath => runConfigPath i terminal
  | .configShow => runConfigShow i terminal
  | .configValidate => runConfigValidate i terminal
  | .completions shell => return .ok (completionScript shell)

end Backlog.Command
