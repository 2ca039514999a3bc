import Backlog.Number.Rounding

/-!
# Doubles as exact numbers

A finite double is `± mantissa · 2^exponent`.  `view` takes a double apart and
`nearest` goes back: it gives the double nearest to a quotient of natural
numbers, a half going to the even mantissa, and infinity where the quotient is
too large.  Every operation here that rounds does so once, by `nearest` on an
exactly computed value.
-/

namespace Backlog.Binary64

/-- A double taken apart. -/
inductive View where
  /-- `± mantissa · 2^exponent`. -/
  | finite (negative : Bool) (mantissa : Nat) (exponent : Int)
  | infinite (negative : Bool)
  | nan
  deriving DecidableEq, Repr

/-- The least exponent, that of the subnormal doubles. -/
def minExponent : Int := -1074

/-- The parts of a double, read from its bits. -/
def view (x : Float) : View :=
  let bits := x.toBits.toNat
  let negative := decide (twoTo 63 ≤ bits)
  let biased : Nat := bits / twoTo 52 % 2048
  let fraction : Nat := bits % twoTo 52
  if biased = 2047 then
    if fraction = 0 then .infinite negative else .nan
  else if biased = 0 then .finite negative fraction minExponent
  else .finite negative (twoTo 52 + fraction) (minExponent + ((biased - 1 : Nat) : Int))

/-- The double with this sign and these bits below the sign. -/
def ofMagnitude (negative : Bool) (bits : Nat) : Float :=
  Float.ofBits (UInt64.ofNat (if negative then twoTo 63 + bits else bits))

/-- Zero, negative or not. -/
def zero (negative : Bool) : Float := ofMagnitude negative 0

/-- Infinity, negative or not. -/
def infinity (negative : Bool) : Float := ofMagnitude negative (2047 * twoTo 52)

/-- Not a number. -/
def nan : Float := ofMagnitude false (2047 * twoTo 52 + twoTo 51)

/-- A quotient divided by `2^exponent`. -/
def descale (exponent : Int) (num den : Nat) : Nat × Nat :=
  if 0 ≤ exponent then (num, den * twoTo exponent.toNat)
  else (num * twoTo (-exponent).toNat, den)

/-- The greatest `k` with `2^k ≤ num / den`, for a positive quotient. -/
def floorLog2 (num den : Nat) : Int :=
  let guess : Int := (num.log2 : Int) - (den.log2 : Int)
  let (n, d) := descale guess num den
  if d ≤ n then guess else guess - 1

/-- The double nearest to `± num / den`, for a positive `den`. -/
def nearest (negative : Bool) (num den : Nat) : Float :=
  if num = 0 then zero negative
  else
    let exponent := max (floorLog2 num den - 52) minExponent
    let (n, d) := descale exponent num den
    let mantissa := roundQuotient .even n d
    -- A mantissa that reached `2^53` carries into the exponent field by itself.
    let bits := (exponent - minExponent).toNat * twoTo 52 + mantissa
    if 2047 * twoTo 52 ≤ bits then infinity negative else ofMagnitude negative bits

/-- The double nearest to `i · 2^exponent`; `negativeZero` is the sign of a zero. -/
def ofScaled (negativeZero : Bool) (i : Int) (exponent : Int) : Float :=
  if i = 0 then zero negativeZero
  else
    let (n, d) := descale (-exponent) i.natAbs 1
    nearest (decide (i < 0)) n d

/-- The double nearest to an integer. -/
def ofInt (i : Int) : Float := ofScaled false i 0

/-- A natural number with a sign. -/
def signed (negative : Bool) (n : Nat) : Int := if negative then -(n : Int) else n

/-- The double nearest to `a · b + c`, rounded once. -/
def fma (a b c : Float) : Float :=
  match view a, view b, view c with
  | .nan, _, _ | _, .nan, _ | _, _, .nan => nan
  | .finite s m e, .finite t n f, .finite u k g =>
    let product := signed (s != t) (m * n)
    let exponent := min (e + f) g
    let sum := product * twoTo (e + f - exponent).toNat
      + signed u k * twoTo (g - exponent).toNat
    ofScaled ((s != t) && u) sum exponent
  | .finite .., .finite .., .infinite u => infinity u
  | .infinite s, .finite t n _, w => ofInfiniteProduct (n == 0) (s != t) w
  | .finite s m _, .infinite t, w => ofInfiniteProduct (m == 0) (s != t) w
  | .infinite s, .infinite t, w => ofInfiniteProduct false (s != t) w
where
  /-- An infinite product plus a summand: infinity times zero and the sum of
  opposite infinities are not numbers. -/
  ofInfiniteProduct (timesZero negative : Bool) (summand : View) : Float :=
    if timesZero || summand == .infinite (!negative) then nan else infinity negative

/-- The nearest integer, a half going away from zero, as a double. -/
def round (x : Float) : Float :=
  match view x with
  | .finite negative mantissa exponent =>
    if 0 ≤ exponent then x
    else nearest negative (roundQuotient .up mantissa (twoTo (-exponent).toNat)) 1
  | .infinite _ | .nan => x

/-- Whether a double is neither infinite nor NaN. -/
def isFinite (x : Float) : Bool :=
  match view x with
  | .finite .. => true
  | .infinite _ | .nan => false

end Backlog.Binary64
