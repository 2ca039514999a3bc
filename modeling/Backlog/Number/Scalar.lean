import Backlog.Number.Layout

/-!
# Arithmetic of the statistics

The smoothing, the regression and the growth rule are written over any `Scalar`.
Run on doubles every operation rounds as double arithmetic does; on rationals
every operation is exact, so what holds of the rules themselves, apart from
rounding, can be said of the same definitions.
-/

namespace Backlog

/-- The operations that the statistics use. -/
class Scalar (α : Type) extends Add α, Sub α, Mul α, Div α, Neg α where
  /-- The number for an integer. -/
  ofInt : Int → α
  /-- `a · b + c`, rounded once. -/
  fma : α → α → α → α
  abs : α → α
  /-- The nearest whole number, a half going away from zero. -/
  round : α → α
  isFinite : α → Bool
  /-- Whether the first number is smaller. -/
  lt : α → α → Bool
  /-- Whether the first number is smaller or the same. -/
  le : α → α → Bool
  /-- Whether the two are the same number. -/
  eq : α → α → Bool
  /-- The text of a number in a message. -/
  text : α → String
  /-- The text of a number with two places. -/
  twoPlaces : α → String

namespace Scalar

variable {α : Type} [Scalar α]

/-- Zero. -/
def zero : α := ofInt 0

/-- One. -/
def one : α := ofInt 1

/-- Whether a number is finite and in `[0, 1]`. -/
def isUnit (x : α) : Bool := isFinite x && (le zero x && le x one)

end Scalar

/-- Double arithmetic. -/
instance : Scalar Float where
  ofInt := Binary64.ofInt
  fma := Binary64.fma
  abs := Float.abs
  round := Binary64.round
  isFinite := Binary64.isFinite
  lt a b := decide (a < b)
  le a b := decide (a ≤ b)
  eq a b := a == b
  text := Layout.message.text
  twoPlaces := fixedPlaces 2

/-- Exact arithmetic. -/
instance : Scalar Rat where
  ofInt := fun i => (i : Rat)
  fma a b c := a * b + c
  abs a := if a < 0 then -a else a
  round a := if a < 0 then -((-a + 1 / 2).floor : Rat) else ((a + 1 / 2).floor : Rat)
  isFinite _ := true
  lt a b := decide (a < b)
  le a b := decide (a ≤ b)
  eq a b := decide (a = b)
  text a := decimalText a.num ++ "/" ++ decimalText a.den
  twoPlaces a :=
    (if a < 0 then "-" else "") ++ fixedDigits 2 a.num.natAbs a.den

end Backlog
