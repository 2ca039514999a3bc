import Backlog.Settings

/-!
# Exponential smoothing

A smoother follows a series with a level, from double smoothing on also with a
trend, and under triple smoothing with a season.  With damping `α`, `β`, `γ`, level
`L`, trend `T` and the season's oldest component `S`, a new value `x` gives

* simple: `L' = α·x + (1-α)·L`;
* double: `L' = α·x + (1-α)·(L+T)` and `T' = β·(L'-L) + (1-β)·T`;
* triple: `L' = α·(x-S) + (1-α)·(L+T)`, the same `T'`, and in place of `S` the
  component `γ·(x-L') + (1-γ)·S` at the other end of the season.

The first value is the first level, and the difference of the first two values the
first trend.  The first season of triple smoothing is made of raw values; until it
is complete level and trend follow the double rule.
-/

namespace Backlog

/-- The damping of a smoother.  A triple smoother has a season of `period`
components. -/
inductive Damping (α : Type) where
  | simple (alpha : α)
  | double (alpha beta : α)
  | triple (alpha beta gamma : α) (period : Nat)
  deriving DecidableEq, Repr

/-- The mode that a damping belongs to. -/
def Damping.mode {α : Type} : Damping α → SmoothingMode
  | .simple .. => .simple
  | .double .. => .double
  | .triple .. => .triple

/-- A series seen so far. -/
structure Smoother (α : Type) where
  damping : Damping α
  level : α
  /-- The trend; zero under simple smoothing. -/
  slope : α
  /-- The components of the season, oldest first; none but under triple smoothing. -/
  seasonal : List α
  /-- The number of values taken in. -/
  samples : Nat
  /-- The last value taken in. -/
  latest : α
  /-- The forecast of the last value that was made before it came. -/
  lastForecast : α
  deriving Repr

namespace Smoother

variable {α : Type} [Scalar α]

/-- A smoother that has seen nothing. -/
def start (damping : Damping α) : Smoother α where
  damping
  level := Scalar.zero
  slope := Scalar.zero
  seasonal := []
  samples := 0
  latest := Scalar.zero
  lastForecast := Scalar.zero

/-- A damping parameter is in `[0, 1]`. -/
def checkDamping (name : String) (x : α) : Except SettingFault Unit :=
  if Scalar.isUnit x then .ok () else .error (.damping name (Scalar.text x))

/-- A smoother that follows a level. -/
def simple (alpha : α) : Except SettingFault (Smoother α) := do
  checkDamping "alpha" alpha
  return start (.simple alpha)

/-- A smoother that follows a level and a trend. -/
def double (alpha beta : α) : Except SettingFault (Smoother α) := do
  checkDamping "alpha" alpha
  checkDamping "beta" beta
  return start (.double alpha beta)

/-- A smoother that follows a level, a trend and a season. -/
def triple (alpha beta gamma : α) (period : Nat) : Except SettingFault (Smoother α) := do
  checkDamping "alpha" alpha
  checkDamping "beta" beta
  checkDamping "gamma" gamma
  if period = 0 then throw .period
  return start (.triple alpha beta gamma period)

/-- The smoother that the settings describe. -/
def ofSettings (s : SmoothingSettings α) : Except SettingFault (Smoother α) :=
  match s.mode with
  | .simple => simple s.alpha
  | .double => double s.alpha s.beta
  | .triple => triple s.alpha s.beta s.gamma s.period

/-- An old and a new number mixed: `weight · new + (1 - weight) · old`. -/
def blend (weight new old : α) : α :=
  Scalar.fma weight new ((Scalar.one - weight) * old)

/-- Level and trend after one more value when there is no season. -/
def followTrend (alpha beta value : α) (s : Smoother α) : α × α :=
  match s.samples with
  | 0 => (value, s.slope)
  | 1 => (value, value - s.level)
  | _ =>
    let level := blend alpha value (s.level + s.slope)
    (level, blend beta (level - s.level) s.slope)

/-- The component of the season, in the order of `seasonal`, that stands for `horizon`
samples ahead; no sample ahead counts as one. -/
def seasonIndex (period horizon : Nat) : Nat :=
  (period - 1 + (horizon - 1) % period) % period

/-- The value expected `horizon` samples after the last one. -/
def forecast (s : Smoother α) (horizon : Nat) : α :=
  if s.samples = 0 then Scalar.zero
  else
    let ahead : α := Scalar.ofInt horizon
    match s.damping with
    | .simple _ => s.level
    | .double .. => Scalar.fma ahead s.slope s.level
    | .triple _ _ _ period =>
      Scalar.fma ahead s.slope s.level
        + s.seasonal.getD (seasonIndex period horizon) Scalar.zero

/-- Level, trend and season after one more value. -/
def follow (s : Smoother α) (value : α) : α × α × List α :=
  match s.damping with
  | .simple alpha =>
    (if s.samples = 0 then value else blend alpha value s.level, s.slope, s.seasonal)
  | .double alpha beta =>
    let (level, slope) := s.followTrend alpha beta value
    (level, slope, s.seasonal)
  | .triple alpha beta gamma period =>
    if s.seasonal.length < period then
      let (level, slope) := s.followTrend alpha beta value
      (level, slope, s.seasonal ++ [value])
    else
      let oldest := s.seasonal.headD Scalar.zero
      let level := blend alpha (value - oldest) (s.level + s.slope)
      let slope := blend beta (level - s.level) s.slope
      (level, slope, s.seasonal.tail ++ [blend gamma (value - level) oldest])

/-- Take in one more value. -/
def add (s : Smoother α) (value : α) : Smoother α :=
  let (level, slope, seasonal) := s.follow value
  { damping := s.damping, level, slope, seasonal
    samples := s.samples + 1
    latest := value
    lastForecast := s.forecast 1 }

/-- How far the last value was from its forecast. -/
def deviation (s : Smoother α) : α :=
  if s.samples = 0 then Scalar.zero else Scalar.abs (s.latest - s.lastForecast)

end Smoother

end Backlog
