import Backlog.Number.Numeral

/-!
# Reading numbers from text

How a number is read from a setting's text: a whole number is an optional plus
and decimal digits, a decimal an optional sign and digits around at most one
point with an optional exponent, or the name of an infinity or of NaN.
-/

namespace Backlog

/-- Why a text is no whole number. -/
inductive WholeFault where
  | empty
  | invalidDigit
  | tooLarge
  deriving DecidableEq, Repr

/-- The wording of a fault. -/
def WholeFault.message : WholeFault → String
  | .empty => "cannot parse integer from empty string"
  | .invalidDigit => "invalid digit found in string"
  | .tooLarge => "number too large to fit in target type"

/-- Take further digits into a whole number; the first character that is no digit
or makes the number exceed `limit` decides the fault. -/
def readDigits (limit : Nat) (n : Nat) : List Char → Except WholeFault Nat
  | [] => .ok n
  | c :: rest =>
    if c.isDigit then
      let next := 10 * n + digitValue c
      if next ≤ limit then readDigits limit next rest else .error .tooLarge
    else .error .invalidDigit

/-- A whole number of at most `limit`. -/
def readWhole (limit : Nat) : List Char → Except WholeFault Nat
  | [] => .error .empty
  | '+' :: c :: rest => readDigits limit 0 (c :: rest)
  | chars => readDigits limit 0 chars

/-- The digits at the front of a text, and the rest. -/
def spanDigits (chars : List Char) : List Char × List Char :=
  (chars.takeWhile Char.isDigit, chars.dropWhile Char.isDigit)

/-- An exponent part that has at least one digit, and the rest. -/
def readExponent : List Char → Option (Bool × List Char)
  | [] => none
  | '-' :: rest => digits true rest
  | '+' :: rest => digits false rest
  | rest => digits false rest
where
  /-- All that is left must be digits, and there must be some. -/
  digits (negative : Bool) (rest : List Char) : Option (Bool × List Char) :=
    match spanDigits rest with
    | ([], _) | (_, _ :: _) => none
    | (ds, []) => some (negative, ds)

/-- A decimal without its sign. -/
def readUnsignedNumeral (negative : Bool) (chars : List Char) : Option Numeral :=
  let (whole, afterWhole) := spanDigits chars
  let (fraction, rest) :=
    match afterWhole with
    | '.' :: more => spanDigits more
    | more => ([], more)
  if whole.isEmpty && fraction.isEmpty then none
  else
    match rest with
    | [] => some ⟨negative, whole, fraction, none⟩
    | c :: more =>
      if c == 'e' || c == 'E' then
        (readExponent more).map fun e => ⟨negative, whole, fraction, some e⟩
      else none

/-- A decimal, an infinity or NaN as a double. -/
def readDouble (text : String) : Option Float :=
  let (negative, rest) :=
    match text.toList with
    | '-' :: rest => (true, rest)
    | '+' :: rest => (false, rest)
    | rest => (false, rest)
  let name := String.ofList (rest.map Char.toLower)
  if name = "inf" || name = "infinity" then some (Binary64.infinity negative)
  else if name = "nan" then some Binary64.nan
  else (readUnsignedNumeral negative rest).map Numeral.toFloat

end Backlog
