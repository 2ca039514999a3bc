import Backlog.Regression
import Backlog.Smoothing

/-!
# The trend of one queue

The backlog of a queue is smoothed, and the slope of the smoothed backlog over time
is taken over a window of the last samples.  Time counts from the first sample.
Samples whose time stamp goes back are not taken in at all.
-/

namespace Backlog

/-- What became of a sample. -/
inductive Recording where
  | accepted
  /-- The time stamp is before that of the last accepted sample. -/
  | outOfOrder (previous received : Int64)
  deriving DecidableEq, Repr

/-- What is published about a queue. -/
structure QueueSnapshot (α : Type) where
  queue : String
  lastRaw : Int64
  lastSmoothed : α
  currentSlope : α
  deriving DecidableEq, Repr

/-- The trend of a queue. -/
structure QueueTrend (α : Type) where
  queue : String
  windowSize : Nat
  policy : GrowthPolicy α
  smoother : Smoother α
  regression : Regression α
  /-- The first time stamp accepted. -/
  origin : Option Int64
  timestamps : Ring Int64
  rawSizes : Ring Int64
  smoothedSizes : Ring α
  /-- The slope as it is reported. -/
  currentSlope : α
  lastRaw : Int64
  lastSmoothed : α

namespace QueueTrend

variable {α : Type} [Scalar α]

/-- A queue of which nothing is known yet. -/
def start (queue : String) (windowSize : Nat) (smoother : Smoother α)
    (policy : GrowthPolicy α) : Except SettingFault (QueueTrend α) := do
  policy.validate
  match Regression.start windowSize with
  | .error _ => throw (.windowSize windowSize)
  | .ok regression =>
    return {
      queue, windowSize, policy, smoother, regression
      origin := none
      timestamps := .empty windowSize
      rawSizes := .empty windowSize
      smoothedSizes := .empty windowSize
      currentSlope := Scalar.zero
      lastRaw := 0
      lastSmoothed := Scalar.zero }

/-- The trend that the settings describe, of a queue of which nothing is known yet. -/
def ofSettings (queue : String) (s : MonitorSettings α) :
    Except SettingFault (QueueTrend α) := do
  let smoother ← Smoother.ofSettings s.smoothing
  start queue s.windowSize smoother s.growthPolicy

/-- Take in a sample whose time stamp does not go back. -/
def accept (t : QueueTrend α) (timestamp raw : Int64) : QueueTrend α :=
  let smoother := t.smoother.add (Scalar.ofInt raw.toInt)
  let origin := t.origin.getD timestamp
  let regression :=
    t.regression.push (Scalar.ofInt (saturatingSub timestamp origin)) smoother.level
  { t with
    smoother, regression
    origin := some origin
    timestamps := (t.timestamps.push timestamp).2
    rawSizes := (t.rawSizes.push raw).2
    smoothedSizes := (t.smoothedSizes.push smoother.level).2
    lastRaw := raw
    lastSmoothed := smoother.level
    currentSlope :=
      if t.windowSize ≤ regression.points.size then t.policy.scale regression.slope
      else t.currentSlope }

/-- Take in a sample, or refuse it because its time stamp goes back. -/
def record (t : QueueTrend α) (timestamp raw : Int64) : Recording × QueueTrend α :=
  match t.timestamps.latest? with
  | none => (.accepted, t.accept timestamp raw)
  | some previous =>
    if timestamp < previous then (.outOfOrder previous timestamp, t)
    else (.accepted, t.accept timestamp raw)

/-- Whether the slope is above the threshold. -/
def isGrowing (t : QueueTrend α) : Bool := Scalar.lt t.policy.threshold t.currentSlope

/-- What is published about the queue. -/
def snapshot (t : QueueTrend α) : QueueSnapshot α :=
  ⟨t.queue, t.lastRaw, t.lastSmoothed, t.currentSlope⟩

/-- Use another threshold and scale.  The slope is scaled anew with the next sample. -/
def withPolicy (t : QueueTrend α) (policy : GrowthPolicy α) : QueueTrend α :=
  { t with policy }

/-- How many samples the window holds. -/
def windowCount (t : QueueTrend α) : Nat := t.regression.points.size

/-- How far the last raw size was from its forecast. -/
def deviation (t : QueueTrend α) : α := t.smoother.deviation

end QueueTrend

end Backlog
