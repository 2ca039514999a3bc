import Backlog.Number.Numeral

/-!
# Shortest decimals

Of all decimals that read back as a given double this module finds one with the
fewest digits, and of those the nearest to the double.

The decimals that read back are those in an interval around `m · 2^e`: it reaches
halfway to the neighbouring doubles, ends included if `m` is even.  On the grid
of multiples of `10^p` only the two multiples next to the double can be in the
interval, so it is enough to go down from a coarse grid to the first one on which
one of the two is inside.
-/

namespace Backlog.Shortest

/-- The interval of the numbers that round to `center · scale`; all bounds are
multiples of the rational `scaleNum / scaleDen`. -/
structure Interval where
  low : Nat
  center : Nat
  high : Nat
  /-- Whether the bounds belong to the interval. -/
  closed : Bool
  scaleNum : Nat
  scaleDen : Nat
  deriving Repr

/-- The interval of the double `mantissa · 2^exponent`.  Below a power of two the
doubles are half as far apart. -/
def interval (mantissa : Nat) (exponent : Int) : Interval :=
  let lowGap :=
    if mantissa = twoTo 52 ∧ Binary64.minExponent < exponent then 1 else 2
  let (num, den) := Binary64.descale (2 - exponent) 1 1
  ⟨4 * mantissa - lowGap, 4 * mantissa, 4 * mantissa + 2, mantissa % 2 == 0, num, den⟩

/-- The interval with its scale divided by `10^power`. -/
def Interval.inTens (i : Interval) (power : Int) : Interval :=
  if 0 ≤ power then { i with scaleDen := i.scaleDen * tenTo power.toNat }
  else { i with scaleNum := i.scaleNum * tenTo (-power).toNat }

/-- Whether the whole number `d` lies in the interval. -/
def Interval.holds (i : Interval) (d : Nat) : Bool :=
  let point := d * i.scaleDen
  let low := i.low * i.scaleNum
  let high := i.high * i.scaleNum
  if i.closed then decide (low ≤ point) && decide (point ≤ high)
  else decide (low < point) && decide (point < high)

/-- The whole number in the interval nearest to its center, if it holds any. -/
def Interval.pick (tie : Tie) (i : Interval) : Option Nat :=
  let below := i.center * i.scaleNum / i.scaleDen
  match decide (0 < below) && i.holds below, i.holds (below + 1) with
  | true, true => some (roundQuotient tie (i.center * i.scaleNum) i.scaleDen)
  | true, false => some below
  | false, true => some (below + 1)
  | false, false => none

/-- The first hit on the grids from `10^power` downwards. -/
def search (tie : Tie) (i : Interval) : Nat → Int → Nat × Int
  | 0, power => (0, power)
  | steps + 1, power =>
    match (i.inTens power).pick tie with
    | some d => (d, power)
    | none => search tie i steps (power - 1)

/-- A power of ten above `mantissa · 2^exponent`. -/
def startPower (mantissa : Nat) (exponent : Int) : Int :=
  ((mantissa.log2 : Int) + exponent + 1) * 30103 / 100000 + 1

/-- The shortest decimal `significand · 10^power` of a positive double; `tie`
decides between two that are equally near. -/
def ofParts (tie : Tie) (mantissa : Nat) (exponent : Int) : Nat × Int :=
  search tie (interval mantissa exponent) 40 (startPower mantissa exponent)

end Backlog.Shortest
