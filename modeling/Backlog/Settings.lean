import Backlog.Fault
import Backlog.Number.Scalar
import Backlog.Text.Blank

/-!
# Settings

What can be set, and which values are accepted.  The `[monitor]` settings are
generic in the numbers they hold, like the statistics that use them; the settings
of the program hold doubles.
-/

namespace Backlog

/-- How many components a smoother follows. -/
inductive SmoothingMode where
  /-- A level. -/
  | simple
  /-- A level and a trend. -/
  | double
  /-- A level, a trend and a season. -/
  | triple
  deriving DecidableEq, Repr, Inhabited

namespace SmoothingMode

/-- The name of a mode. -/
def name : SmoothingMode → String
  | .simple => "simple"
  | .double => "double"
  | .triple => "triple"

/-- The mode of exactly this name. -/
def ofName? (s : String) : Option SmoothingMode :=
  [simple, double, triple].find? fun mode => mode.name == s

/-- A mode from its name in any letter case, with blanks around it. -/
def read (s : String) : Except SettingFault SmoothingMode :=
  let name := (Text.trim s).map Char.toLower
  match ofName? name with
  | some mode => .ok mode
  | none => .error (.unknownMode name)

end SmoothingMode

/-- The parameters of a smoother.  A mode ignores those it has no use for. -/
structure SmoothingSettings (α : Type) where
  mode : SmoothingMode
  alpha : α
  /-- Damping of the trend. -/
  beta : α
  /-- Damping of the season. -/
  gamma : α
  /-- The length of a season in samples. -/
  period : Nat
  deriving DecidableEq, Repr

/-- From which slope on a queue counts as growing: slopes are multiplied by
`slopeScale` and rounded before they are compared with `threshold`. -/
structure GrowthPolicy (α : Type) where
  threshold : α
  slopeScale : α
  deriving DecidableEq, Repr

/-- How backlogs are watched. -/
structure MonitorSettings (α : Type) where
  /-- How many smoothed points the slope is taken over. -/
  windowSize : Nat
  growthThreshold : α
  slopeScale : α
  /-- Milliseconds from one round to the next. -/
  pollIntervalMs : Nat
  /-- Whether the check is active from the start. -/
  startActive : Bool
  smoothing : SmoothingSettings α
  deriving DecidableEq, Repr

/-- Where backlogs are read. -/
structure SourceSettings where
  /-- The document that the queue host rewrites. -/
  spoolFile : String
  /-- The ids of the queues to watch. -/
  queues : List String
  deriving DecidableEq, Repr

/-- The files of the program. -/
structure PathSettings where
  configFile : String
  stateFile : String
  jsonlLog : String
  deriving DecidableEq, Repr

/-- All settings. -/
structure Settings where
  monitor : MonitorSettings Float
  sources : SourceSettings
  paths : PathSettings

namespace GrowthPolicy

variable {α : Type} [Scalar α]

/-- A threshold is finite and not negative, a scale finite and positive. -/
def validate (p : GrowthPolicy α) : Except SettingFault Unit :=
  if !(Scalar.isFinite p.threshold) || Scalar.lt p.threshold Scalar.zero then
    .error (.growthThreshold (Scalar.text p.threshold))
  else if !(Scalar.isFinite p.slopeScale) || Scalar.le p.slopeScale Scalar.zero then
    .error (.slopeScale (Scalar.text p.slopeScale))
  else .ok ()

/-- A slope as it is reported: scaled and rounded to two places.  A slope that has
no finite value then is reported as zero. -/
def scale (p : GrowthPolicy α) (slope : α) : α :=
  let hundred : α := Scalar.ofInt 100
  let scaled := Scalar.round (slope * p.slopeScale * hundred) / hundred
  if Scalar.isFinite scaled then scaled else Scalar.zero

end GrowthPolicy

namespace MonitorSettings

/-- The threshold and the scale, which only have meaning together. -/
def growthPolicy {α : Type} (s : MonitorSettings α) : GrowthPolicy α :=
  ⟨s.growthThreshold, s.slopeScale⟩

/-- The settings with another threshold and scale. -/
def withPolicy {α : Type} (s : MonitorSettings α) (p : GrowthPolicy α) : MonitorSettings α :=
  { s with growthThreshold := p.threshold, slopeScale := p.slopeScale }

end MonitorSettings

/-- Slopes above a tenth count as growth, taken in hundredths. -/
def GrowthPolicy.standard : GrowthPolicy Float := ⟨0.1, 100.0⟩

/-- The smoothing that is used unless set otherwise. -/
def SmoothingSettings.standard : SmoothingSettings Float := ⟨.simple, 0.3, 0.1, 0.1, 1⟩

/-- The monitoring that is used unless set otherwise. -/
def MonitorSettings.standard : MonitorSettings Float where
  windowSize := 60
  growthThreshold := GrowthPolicy.standard.threshold
  slopeScale := GrowthPolicy.standard.slopeScale
  pollIntervalMs := 60000
  startActive := false
  smoothing := .standard

namespace Settings

/-- A damping setting is in `[0, 1]`. -/
def validateDamping (name : String) (x : Float) : Except SettingFault Unit :=
  if Scalar.isUnit x then .ok () else .error (.dampingSetting name (Scalar.text x))

/-- No id stands twice in a row of ids; the first one that repeats an earlier one is
named. -/
def validateDistinct (seen : List String) : List String → Except SettingFault Unit
  | [] => .ok ()
  | id :: rest =>
    if seen.contains id then .error (.repeatedQueue id) else validateDistinct (id :: seen) rest

/-- Whether the program can work with these settings, and else the first reason why
not. -/
def validate (s : Settings) : Except SettingFault Unit := do
  let monitor := s.monitor
  if monitor.windowSize < 2 then throw (.windowSize monitor.windowSize)
  monitor.growthPolicy.validate
  if monitor.pollIntervalMs = 0 then throw .pollInterval
  validateDamping "alpha" monitor.smoothing.alpha
  validateDamping "beta" monitor.smoothing.beta
  validateDamping "gamma" monitor.smoothing.gamma
  if monitor.smoothing.period = 0 then throw .periodSetting
  validateDistinct [] s.sources.queues

/-- The settings with blanks around queue ids cut off and empty ids left out. -/
def normalizeQueues (s : Settings) : Settings :=
  { s with
    sources :=
      { s.sources with
        queues := (s.sources.queues.map Text.trim).filter fun id => !id.isEmpty } }

end Settings

end Backlog
