import Backlog.Text.Quoted

/-!
# Faults

Everything that can go wrong, as causes.  A `SettingFault` says which setting is
out of its range; a `Fault` is any failure of an operation.  Each fault has one
wording, one code that tools can rely on, and is either worth a second try or not.
-/

namespace Backlog

/-- Why settings are refused.  Numbers are given as they are shown. -/
inductive SettingFault where
  | windowSize (got : Nat)
  | regressionWindow (got : Nat)
  | growthThreshold (got : String)
  | slopeScale (got : String)
  | pollInterval
  /-- A damping setting outside `[0, 1]`. -/
  | dampingSetting (name got : String)
  | periodSetting
  /-- A damping parameter of a smoother outside `[0, 1]`. -/
  | damping (name got : String)
  | period
  | unknownMode (text : String)
  | repeatedQueue (id : String)
  /-- Any other reason, in words. -/
  | stated (reason : String)
  deriving DecidableEq, Repr

/-- The wording of a reason. -/
def SettingFault.message : SettingFault → String
  | .windowSize got => "monitor.window_size must be >= 2, got " ++ toString got
  | .regressionWindow got => "regression window must hold >= 2 points, got " ++ toString got
  | .growthThreshold got => "monitor.growth_threshold must be finite and >= 0, got " ++ got
  | .slopeScale got => "monitor.slope_scale must be finite and > 0, got " ++ got
  | .pollInterval => "monitor.poll_interval_ms must be > 0"
  | .dampingSetting name got =>
    "monitor.smoothing." ++ name ++ " must be in [0,1], got " ++ got
  | .periodSetting => "monitor.smoothing.period must be >= 1"
  | .damping name got => "smoothing " ++ name ++ " must be in [0,1], got " ++ got
  | .period => "triple smoothing period must be >= 1"
  | .unknownMode text =>
    "unknown smoothing mode " ++ Text.quoted text ++ " (expected simple, double or triple)"
  | .repeatedQueue id => "sources.queues lists " ++ Text.quoted id ++ " more than once"
  | .stated reason => reason

/-- Why an operation failed. -/
inductive Fault where
  | invalidConfig (cause : SettingFault)
  | missingConfig (path : String)
  | configParse (context details : String)
  | sampleParse (line : Nat) (details : String)
  | stateUnavailable (details : String)
  | serialization (context details : String)
  | signal (pid : UInt32) (details : String)
  | io (path details : String)
  | runtime (details : String)
  deriving DecidableEq, Repr

namespace Fault

/-- The code of a fault. -/
def code : Fault → String
  | .invalidConfig .. => "QGM-1001"
  | .missingConfig .. => "QGM-1002"
  | .configParse .. => "QGM-1003"
  | .sampleParse .. => "QGM-2001"
  | .stateUnavailable .. => "QGM-2002"
  | .serialization .. => "QGM-2101"
  | .signal .. => "QGM-3001"
  | .io .. => "QGM-3002"
  | .runtime .. => "QGM-3900"

/-- The wording of a fault after its code. -/
def text : Fault → String
  | .invalidConfig cause => "invalid configuration: " ++ cause.message
  | .missingConfig path => "missing configuration file: " ++ path
  | .configParse context details =>
    "configuration parse failure in " ++ context ++ ": " ++ details
  | .sampleParse line details =>
    "sample log parse failure at line " ++ toString line ++ ": " ++ details
  | .stateUnavailable details => "daemon state unavailable: " ++ details
  | .serialization context details => "serialization failure in " ++ context ++ ": " ++ details
  | .signal pid details => "failed to signal daemon pid " ++ toString pid ++ ": " ++ details
  | .io path details => "IO failure at " ++ path ++ ": " ++ details
  | .runtime details => "runtime failure: " ++ details

/-- The wording of a fault, led by its code in brackets. -/
def message (f : Fault) : String := "[" ++ f.code ++ "] " ++ f.text

/-- Whether a second try might succeed. -/
def isRetryable : Fault → Bool
  | .io .. | .stateUnavailable .. | .runtime .. => true
  | _ => false

end Fault

end Backlog
