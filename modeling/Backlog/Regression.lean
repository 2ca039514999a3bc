import Backlog.Fault
import Backlog.Number.Scalar
import Backlog.Ring

/-!
# Sliding linear regression

The least-squares line through the last points of a series.  Five running sums say
all that the line needs to know about the points; a point that leaves the window is
taken out of the sums again, so no step looks at more than two points.
-/

namespace Backlog

/-- The sums over a row of points. -/
structure PointSums (α : Type) where
  /-- The number of points. -/
  n : Nat
  x : α
  y : α
  xy : α
  xx : α
  deriving DecidableEq, Repr

namespace PointSums

variable {α : Type} [Scalar α]

/-- The sums over no points. -/
def empty : PointSums α := ⟨0, Scalar.zero, Scalar.zero, Scalar.zero, Scalar.zero⟩

/-- Take a point in. -/
def add (s : PointSums α) (x y : α) : PointSums α :=
  ⟨s.n + 1, s.x + x, s.y + y, s.xy + x * y, s.xx + x * x⟩

/-- Take out a point that was taken in before.  With the last point whatever rounding
left in the sums goes too. -/
def remove (s : PointSums α) (x y : α) : PointSums α :=
  if s.n ≤ 1 then
    if s.n = 0 then s else empty
  else ⟨s.n - 1, s.x - x, s.y - y, s.xy - x * y, s.xx - x * x⟩

/-- The slope of the least-squares line; zero for fewer than two points and for points
that all have the same `x`. -/
def slope (s : PointSums α) : α :=
  if s.n < 2 then Scalar.zero
  else
    let n : α := Scalar.ofInt s.n
    let spread := Scalar.fma n s.xx (-(s.x * s.x))
    if Scalar.eq spread Scalar.zero || !(Scalar.isFinite spread) then Scalar.zero
    else Scalar.fma n s.xy (-(s.x * s.y)) / spread

/-- The height of the least-squares line at zero. -/
def intercept (s : PointSums α) : α :=
  if s.n = 0 then Scalar.zero
  else Scalar.fma s.slope (-s.x) s.y / Scalar.ofInt s.n

end PointSums

/-- The last points of a series and the sums over them. -/
structure Regression (α : Type) where
  sums : PointSums α
  points : Ring (α × α)

namespace Regression

variable {α : Type} [Scalar α]

/-- A regression over no points yet, and later over the last `capacity` points. -/
def start (capacity : Nat) : Except SettingFault (Regression α) :=
  if capacity < 2 then .error (.regressionWindow capacity)
  else .ok ⟨.empty, .empty capacity⟩

/-- Take in a point; the oldest one leaves a full window first. -/
def push (r : Regression α) (x y : α) : Regression α :=
  match r.points.push (x, y) with
  | (none, points) => ⟨r.sums.add x y, points⟩
  | (some (oldX, oldY), points) => ⟨(r.sums.remove oldX oldY).add x y, points⟩

/-- The slope of the line. -/
def slope (r : Regression α) : α := r.sums.slope

/-- The height of the line at zero. -/
def intercept (r : Regression α) : α := r.sums.intercept

end Regression

end Backlog
