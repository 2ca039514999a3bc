import Backlog.Number.Numeral

/-!
# Doubles by one scaling step

A fast way to read a numeral as a double: its leading digits, as many as fit a 64-bit
word, become a double, which is then multiplied or divided by a power of ten.  Each of
the steps rounds, so the result can differ from the double nearest to the numeral in
its last places.
-/

namespace Backlog.Numeral

/-- The largest significand. -/
def maxSignificand : Nat := twoTo 64 - 1

/-- The largest exponent that is kept. -/
def maxExponent : Nat := twoTo 31 - 1

/-- Take digits into a significand as long as it fits a word; returns the significand
and the digits left over. -/
def takeDigits (significand : Nat) : List Char → Nat × List Char
  | [] => (significand, [])
  | c :: rest =>
    let next := 10 * significand + digitValue c
    if next ≤ maxSignificand then takeDigits next rest else (significand, c :: rest)

/-- A power of ten as a double. -/
def powerOfTen (n : Nat) : Float := Binary64.nearest false (tenTo n) 1

/-- Divide by a power of ten, in steps of at most `10^308`. -/
def scaleDown : Nat → Float → Nat → Float
  | 0, x, _ => x
  | fuel + 1, x, power =>
    if power ≤ 308 then x / powerOfTen power
    else if x == 0 then x
    else scaleDown fuel (x / powerOfTen 308) (power - 308)

/-- Multiply by a power of ten; nothing if the product is too large. -/
def scaleUp (x : Float) (power : Nat) : Option Float :=
  if power ≤ 308 then
    let product := x * powerOfTen power
    if Binary64.isFinite product then some product else none
  else if x == 0 then some x
  else none

/-- Scale a significand by a power of ten. -/
def scaleBy (significand : Nat) (power : Int) : Option Float :=
  let x := Binary64.ofInt significand
  if 0 ≤ power then scaleUp x power.toNat
  else some (scaleDown (power.natAbs / 308 + 1) x power.natAbs)

/-- An integer held at the ends of the 32-bit range. -/
def saturate32 (i : Int) : Int := clamp (-(twoTo 31)) (twoTo 31 - 1) i

/-- The double of a numeral without its sign.  Nothing stands for a number that is too
large. -/
def approximateMagnitude (n : Numeral) : Option Float :=
  let (significand, leftOver) := takeDigits 0 n.whole
  let (significand, unused) := takeDigits significand n.fraction
  let power : Int := (leftOver.length : Int) - (n.fraction.length - unused.length : Nat)
  match n.exponent with
  | none => scaleBy significand power
  | some (negative, digits) =>
    let exponent := digitsBelow (maxExponent + 1) digits
    if maxExponent < exponent then
      if significand ≠ 0 ∧ negative = false then none else some (Binary64.zero false)
    else scaleBy significand (saturate32 (power + Binary64.signed negative exponent))

/-- The double that a numeral is read as, if it is not too large. -/
def approximate (n : Numeral) : Option Float :=
  let size := digitsBelow (maxSignificand + 1) n.whole
  if n.isInteger ∧ size ≤ maxSignificand then
    if n.negative = true ∧ (size = 0 ∨ twoTo 63 < size) then some (-(Binary64.ofInt size))
    else some (Binary64.ofInt (Binary64.signed n.negative size))
  else n.approximateMagnitude.map fun x => if n.negative then -x else x

end Backlog.Numeral
