import Backlog.Number.Binary64

/-!
# Decimal numerals

A numeral is a decimal number as it is written: digits before the point, digits
after it, and an exponent.  Its exact value is a quotient of natural numbers, so
the double it stands for is the one nearest to that quotient.
-/

namespace Backlog

/-- The value of a decimal digit. -/
def digitValue (c : Char) : Nat := c.toNat - 48

/-- The number that a row of decimal digits stands for. -/
def digitsValue (digits : List Char) : Nat :=
  digits.foldl (fun n c => 10 * n + digitValue c) 0

/-- The number that a row of digits stands for in a system, as far as it stays below a
limit: once it has reached the limit, no further digit is taken in.  So it reaches the limit
exactly if the number does, and below the limit it is the number. -/
def valueBelow (radix limit : Nat) (value : Char → Nat) (digits : List Char) : Nat :=
  digits.foldl (fun n c => if n < limit then radix * n + value c else n) 0

/-- The number that a row of decimal digits stands for, as far as it stays below a limit. -/
def digitsBelow (limit : Nat) (digits : List Char) : Nat := valueBelow 10 limit digitValue digits

/-- A number does not shrink when it takes in further digits. -/
theorem le_foldl_digits (digits : List Char) (n : Nat) :
    n ≤ digits.foldl (fun n c => 10 * n + digitValue c) n := by
  induction digits generalizing n with
  | nil => exact Nat.le_refl n
  | cons c rest ih => exact Nat.le_trans (by omega) (ih (10 * n + digitValue c))

/-- Below the limit all digits are taken in. -/
theorem foldl_below {limit : Nat} {digits : List Char} {n : Nat}
    (h : digits.foldl (fun n c => 10 * n + digitValue c) n < limit) :
    digits.foldl (fun n c => if n < limit then 10 * n + digitValue c else n) n =
      digits.foldl (fun n c => 10 * n + digitValue c) n := by
  induction digits generalizing n with
  | nil => rfl
  | cons c rest ih =>
    have hn : n < limit := Nat.lt_of_le_of_lt (le_foldl_digits (c :: rest) n) h
    rw [List.foldl_cons, if_pos hn]
    exact ih h

/-- A number below the limit is read as it is. -/
theorem digitsBelow_of_lt {limit : Nat} {digits : List Char} (h : digitsValue digits < limit) :
    digitsBelow limit digits = digitsValue digits :=
  foldl_below h

/-- The decimal digits of a number, without leading zeros; zero is one digit. -/
def decimalDigits (n : Nat) : List Char := Nat.toDigits 10 n

/-- An integer in decimal. -/
def decimalText (i : Int) : String :=
  String.ofList (if i < 0 then '-' :: decimalDigits i.natAbs else decimalDigits i.natAbs)

/-- A decimal number as it is written.  There is a point exactly if `fraction`
has digits. -/
structure Numeral where
  negative : Bool
  /-- The digits before the point. -/
  whole : List Char
  /-- The digits after the point. -/
  fraction : List Char
  /-- Whether the exponent is negative, and its digits. -/
  exponent : Option (Bool × List Char)
  deriving DecidableEq, Repr

namespace Numeral

/-- The characters of a numeral; an exponent carries its sign. -/
def chars (n : Numeral) : List Char :=
  (if n.negative then ['-'] else []) ++ n.whole
    ++ (if n.fraction.isEmpty then [] else '.' :: n.fraction)
    ++ (match n.exponent with
        | none => []
        | some (negative, digits) => 'e' :: (if negative then '-' else '+') :: digits)

/-- The numeral of an integer. -/
def ofInt (i : Int) : Numeral := ⟨decide (i < 0), decimalDigits i.natAbs, [], none⟩

/-- Whether the numeral is written as an integer: without point and exponent. -/
def isInteger (n : Numeral) : Bool := n.fraction.isEmpty && n.exponent.isNone

/-- The integer that a numeral without point and exponent stands for, if it lies between
two bounds. -/
def intWithin? (low high : Int) (n : Numeral) : Option Int :=
  let limit := max low.natAbs high.natAbs + 1
  let i := Binary64.signed n.negative (digitsBelow limit n.whole)
  if low ≤ i ∧ i ≤ high then some i else none

/-- From here on an exponent takes in no further digits. -/
def exponentLimit : Nat := twoTo 16

/-- The power of ten that the exponent part stands for. -/
def tens (n : Numeral) : Int :=
  match n.exponent with
  | none => 0
  | some (negative, digits) => Binary64.signed negative (digitsBelow exponentLimit digits)

/-- How many digits count one by one.  No double, and no number halfway between two of
them, has as many, so of the digits behind them it only matters whether there are any. -/
def keptDigits : Nat := 800

/-- The double nearest to the numeral.  A value above `10^309` is infinite and one
below `10^(-330)` is zero, whatever its digits. -/
def toFloat (n : Numeral) : Float :=
  let digits := (n.whole ++ n.fraction).dropWhile (· == '0')
  let size : Int := digits.length + n.tens - n.fraction.length
  if digits.isEmpty then Binary64.zero n.negative
  else if 310 < size then Binary64.infinity n.negative
  else if size < -330 then Binary64.zero n.negative
  else
    let kept := digits.take keptDigits
    let shown := if (digits.drop keptDigits).all (· == '0') then kept else kept ++ ['1']
    let significand := digitsValue shown
    let power := size - shown.length
    if 0 ≤ power then Binary64.nearest n.negative (significand * tenTo power.toNat) 1
    else Binary64.nearest n.negative significand (tenTo (-power).toNat)

end Numeral

end Backlog
