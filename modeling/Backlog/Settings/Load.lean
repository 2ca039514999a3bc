import Backlog.Host.Basic
import Backlog.Host.Path
import Backlog.Settings.Document
import Backlog.Settings.Overrides

/-!
# Loading settings

Settings come from a file, then from variables, and are then checked as a whole.  A file
that was asked for must be there; the usual file may be missing.
-/

namespace Backlog

namespace PathSettings

/-- The directory of the program's data, seen from the home directory. -/
def dataDir (home : String) : String :=
  [".local", "share", "qgm"].foldl Path.join home

/-- The usual paths. -/
def standard (home : String) : PathSettings where
  configFile := [".config", "qgm", "config.toml"].foldl Path.join home
  stateFile := Path.join (dataDir home) "state.json"
  jsonlLog := Path.join (dataDir home) "activity.jsonl"

end PathSettings

namespace Settings

/-- The settings that are used unless set otherwise. -/
def standard (home : String) : Settings where
  monitor := .standard
  sources := ⟨Path.join (PathSettings.dataDir home) "backlog.json", []⟩
  paths := .standard home

variable {m : Type → Type} [Monad m] [Host m]

/-- The home directory, or a directory for anyone. -/
def homeDir : m String := do
  match ← Host.env "HOME" with
  | some home => return home
  | none =>
    Host.warn "[QGM-CONFIG] WARNING: HOME not set, falling back to /tmp for data paths"
    return "/tmp"

/-- The path of the usual file. -/
def standardPath : m String := do
  return (PathSettings.standard (← homeDir)).configFile

/-- The variables that override settings, those that are blank left out. -/
def overrides : m (List (String × String)) := do
  let found ← Override.all.mapM fun o => do return (o.name, ← Host.env (m := m) o.name)
  return found.filterMap fun (name, text) =>
    match text with
    | some text => if (Text.trim text).isEmpty then none else some (name, text)
    | none => none

/-- The settings in the file at a path. -/
def ofFile (other : Settings) (path : String) : m (Except Fault Settings) := do
  match ← Host.readText path with
  | .error fault => return .error (.io path fault.message)
  | .ok text =>
    match ofText? other text with
    | some s => return .ok s
    | none => return .error (.configParse "toml" Toml.faultText)

/-- Settings read from `path`, with variables applied and checked. -/
def complete (path : String) (overrides : List (String × String)) (s : Settings) :
    Except Fault Settings := do
  let s := { s with paths := { s.paths with configFile := path } }
  let s ← s.override fun name => List.lookup name overrides
  let s := s.normalizeQueues
  match s.validate with
  | .ok () => return s
  | .error cause => throw (.invalidConfig cause)

/-- Load the settings, from the given file or the usual one. -/
def load (path : Option String) : m (Except Fault Settings) := do
  let other := standard (← homeDir)
  let file := path.getD other.paths.configFile
  let read : Except Fault Settings ←
    if ← Host.isThere file then ofFile other file
    else
      match path with
      | some _ => pure (.error (.missingConfig file))
      | none => pure (.ok other)
  match read with
  | .error fault => return .error fault
  | .ok s => return s.complete file (← overrides)

end Settings

end Backlog
