import Backlog.Number.Shortest

/-!
# Laying out the digits of a double

The digits are always the shortest ones.  A `Layout` holds what a format decides
beyond them: up to which sizes a number is written without an exponent, whether a
whole number keeps a fraction digit, and which way a tie between two shortest
decimals goes.  `fixedPlaces` is the other way to write a double: all digits up
to a given place, correctly rounded.
-/

namespace Backlog

/-- What a format decides about the text of a finite double. -/
structure Layout where
  /-- The most places that the point may stand after the first digit, and the
  most zeros that may follow it before the first digit, for a numeral without an
  exponent; nothing if there never is an exponent. -/
  positional : Option (Nat × Nat)
  /-- Whether a whole number ends in `.0`. -/
  keepsFraction : Bool
  tie : Tie
  deriving DecidableEq, Repr

namespace Layout

/-- Lay out `0.DIGITS · 10^point`. -/
def place (layout : Layout) (negative : Bool) (digits : List Char) (point : Int) : Numeral :=
  let isPositional :=
    match layout.positional with
    | none => true
    | some (most, zeros) => decide (point ≤ most) && decide (-point ≤ zeros)
  let noFraction := if layout.keepsFraction then ['0'] else []
  if isPositional then
    if point ≤ 0 then
      ⟨negative, ['0'], List.replicate (-point).toNat '0' ++ digits, none⟩
    else
      let places := point.toNat
      let whole := digits.take places ++ List.replicate (places - digits.length) '0'
      let fraction := digits.drop places
      ⟨negative, whole, if fraction.isEmpty then noFraction else fraction, none⟩
  else
    let power := point - 1
    ⟨negative, digits.take 1, digits.drop 1,
      some (decide (power < 0), decimalDigits power.natAbs)⟩

/-- The numeral of a finite double; infinities and NaN have none. -/
def numeral? (layout : Layout) (x : Float) : Option Numeral :=
  match Binary64.view x with
  | .finite negative mantissa exponent =>
    if mantissa = 0 then
      some ⟨negative, ['0'], if layout.keepsFraction then ['0'] else [], none⟩
    else
      let (significand, power) := Shortest.ofParts layout.tie mantissa exponent
      let digits := decimalDigits significand
      some (layout.place negative digits (digits.length + power))
  | .infinite _ | .nan => none

/-- The text of a double: its numeral, or the name of what it is instead. -/
def text (layout : Layout) (x : Float) : String :=
  match layout.numeral? x with
  | some n => String.ofList n.chars
  | none =>
    match Binary64.view x with
    | .infinite true => "-inf"
    | .infinite false => "inf"
    | _ => "NaN"

end Layout

/-- Numbers in messages are never written with an exponent, and whole ones
without a fraction. -/
def Layout.message : Layout := ⟨none, false, .up⟩

/-- The digits of `num / den` with `places` of them after the point, a half going
to the even digit. -/
def fixedDigits (places num den : Nat) : String :=
  let scaled := roundQuotient .even (num * tenTo places) den
  let digits := decimalDigits scaled
  let padded := List.replicate (places + 1 - digits.length) '0' ++ digits
  let split := padded.length - places
  String.ofList (padded.take split ++ '.' :: padded.drop split)

/-- A double with `places` digits after the point. -/
def fixedPlaces (places : Nat) (x : Float) : String :=
  match Binary64.view x with
  | .finite negative mantissa exponent =>
    let (num, den) := Binary64.descale (-exponent) mantissa 1
    (if negative then "-" else "") ++ fixedDigits places num den
  | .infinite true => "-inf"
  | .infinite false => "inf"
  | .nan => "NaN"

end Backlog
