import Backlog.Host.Basic
import Backlog.Number.Reading

/-!
# Dates and times as text

Points in time are written and read as RFC 3339 says: a date, a time of day with an
optional fraction of a second, and the distance from UTC.

Days are counted in eras of 400 years from the first of March of the year zero, so the
leap day is the last day of a year.
-/

namespace Backlog.Calendar

/-- A day of the Gregorian calendar. -/
structure Date where
  year : Int
  month : Nat
  day : Nat
  deriving DecidableEq, Repr

/-- Days from the first of March of the year zero to the first of January 1970. -/
def epoch : Int := 719468

/-- Days of a year before the first of a month, in a year that starts in March; months
are counted from zero. -/
def daysBeforeMonth (month : Nat) : Nat := (153 * month + 2) / 5

/-- Days from the start of 1970 to a day. -/
def daysOf (d : Date) : Int :=
  let year : Int := if d.month ≤ 2 then d.year - 1 else d.year
  let era := year / 400
  let yearOfEra := (year % 400).toNat
  let dayOfYear := daysBeforeMonth ((d.month + 9) % 12) + d.day - 1
  era * 146097 + ((yearOfEra * 365 + yearOfEra / 4 - yearOfEra / 100 + dayOfYear : Nat) : Int)
    - epoch

/-- The day that is some days after the start of 1970. -/
def dateOf (days : Int) : Date :=
  let shifted := days + epoch
  let era := shifted / 146097
  let dayOfEra := (shifted % 146097).toNat
  let yearOfEra := (dayOfEra - dayOfEra / 1460 + dayOfEra / 36524 - dayOfEra / 146096) / 365
  let dayOfYear := dayOfEra - (365 * yearOfEra + yearOfEra / 4 - yearOfEra / 100)
  let month := (5 * dayOfYear + 2) / 153
  let year := era * 400 + yearOfEra
  let monthOfYear := if month < 10 then month + 3 else month - 9
  { year := if monthOfYear ≤ 2 then year + 1 else year
    month := monthOfYear
    day := dayOfYear - daysBeforeMonth month + 1 }

/-- Whether a year has a leap day. -/
def isLeap (year : Int) : Bool := year % 4 == 0 && (year % 100 != 0 || year % 400 == 0)

/-- The number of days of a month. -/
def daysInMonth (year : Int) (month : Nat) : Nat :=
  if month = 2 then if isLeap year then 29 else 28
  else if month = 4 ∨ month = 6 ∨ month = 9 ∨ month = 11 then 30
  else 31

/-- A number with leading zeros up to a width. -/
def padded (width n : Nat) : String :=
  let digits := decimalDigits n
  String.ofList (List.replicate (width - digits.length) '0' ++ digits)

/-- Nanoseconds of a second. -/
def second : Nat := 1000000000

/-- Seconds of a day. -/
def day : Nat := 86400

/-- Date and time of day without the fraction of a second. -/
def secondsText (i : Instant) : String :=
  let seconds := i.nanos / second
  let date := dateOf (seconds / day)
  let time := (seconds % day).toNat
  padded 4 date.year.toNat ++ "-" ++ padded 2 date.month ++ "-" ++ padded 2 date.day ++ "T"
    ++ padded 2 (time / 3600) ++ ":" ++ padded 2 (time / 60 % 60) ++ ":" ++ padded 2 (time % 60)

/-- The fraction of a second: none, or three, six or nine digits, as few as say it. -/
def fractionText (i : Instant) : String :=
  let nanos := (i.nanos % second).toNat
  if nanos = 0 then ""
  else if nanos % 1000000 = 0 then "." ++ padded 3 (nanos / 1000000)
  else if nanos % 1000 = 0 then "." ++ padded 6 (nanos / 1000)
  else "." ++ padded 9 nanos

/-- A point in time with all its digits. -/
def exactText (i : Instant) : String := secondsText i ++ fractionText i ++ "+00:00"

/-- A point in time in milliseconds. -/
def stampText (i : Instant) : String :=
  secondsText i ++ "." ++ padded 3 ((i.nanos % second).toNat / 1000000) ++ "Z"

/-- The places of a stamp: a nine stands for any digit. -/
def stampShape : List Char := "9999-99-99T99:99:99.999Z".toList

/-- Whether a row of characters has the form of a point in time in milliseconds. -/
def isStamp (cs : List Char) : Bool :=
  cs.length == stampShape.length
    && (cs.zip stampShape).all fun (c, place) => if place == '9' then c.isDigit else c == place

/-- The milliseconds from the start of 1970 to a point in time. -/
def millis (i : Instant) : Int := i.nanos / 1000000

/-- A number of exactly two digits at the front of a text, and the rest. -/
def readTwo : List Char → Option (Nat × List Char)
  | a :: b :: rest =>
    if a.isDigit && b.isDigit then some (digitsValue [a, b], rest) else none
  | _ => none

/-- A character that must be at the front of a text, and the rest. -/
def readChar (c : Char) : List Char → Option (List Char)
  | d :: rest => if d = c then some rest else none
  | [] => none

/-- A fraction of a second in nanoseconds, if there is one. -/
def readFraction : List Char → Option (Nat × List Char)
  | '.' :: rest =>
    match spanDigits rest with
    | ([], _) => none
    | (digits, rest) =>
      let nine := digits.take 9
      some (digitsValue nine * tenTo (9 - nine.length), rest)
  | rest => some (0, rest)

/-- The seconds that a clock is ahead of UTC. -/
def readOffset : List Char → Option (Int × List Char)
  | 'Z' :: rest | 'z' :: rest => some (0, rest)
  | '+' :: rest => (size rest).map fun (n, rest) => ((n : Int), rest)
  | '-' :: rest | '\u2212' :: rest => (size rest).map fun (n, rest) => (-(n : Int), rest)
  | _ => none
where
  /-- Hours and minutes. -/
  size (cs : List Char) : Option (Nat × List Char) := do
    let (hours, cs) ← readTwo cs
    let cs ← readChar ':' cs
    let (minutes, cs) ← readTwo cs
    if hours ≤ 23 ∧ minutes ≤ 59 then some (hours * 3600 + minutes * 60, cs) else none

/-- The mark between a date and a time of day, and the rest. -/
def readDivider : List Char → Option (List Char)
  | 'T' :: rest | 't' :: rest | ' ' :: rest => some rest
  | _ => none

/-- A point in time that a text says.  The sixtieth second of a minute is a leap second; it is
marked, and stands at the first second of the next minute. -/
structure Moment where
  instant : Instant
  isLeap : Bool
  deriving DecidableEq, Repr

/-- A date at the front of a text, and the rest. -/
def readDate (cs : List Char) : Option (Date × List Char) := do
  let (century, cs) ← readTwo cs
  let (year, cs) ← readTwo cs
  let cs ← readChar '-' cs
  let (month, cs) ← readTwo cs
  let cs ← readChar '-' cs
  let (dayOfMonth, cs) ← readTwo cs
  let year : Int := (100 * century + year : Nat)
  if 1 ≤ month ∧ month ≤ 12 ∧ 1 ≤ dayOfMonth ∧ dayOfMonth ≤ daysInMonth year month then
    some (⟨year, month, dayOfMonth⟩, cs)
  else none

/-- A point in time at the front of a text, and the rest. -/
def readMoment (cs : List Char) : Option (Moment × List Char) := do
  let (date, cs) ← readDate cs
  let cs ← readDivider cs
  let (hours, cs) ← readTwo cs
  let cs ← readChar ':' cs
  let (minutes, cs) ← readTwo cs
  let cs ← readChar ':' cs
  let (seconds, cs) ← readTwo cs
  let (nanos, cs) ← readFraction cs
  let (offset, cs) ← readOffset cs
  if hours ≤ 23 ∧ minutes ≤ 59 ∧ seconds ≤ 60 then
    let time : Nat := hours * 3600 + minutes * 60 + seconds
    let total : Int := daysOf date * day + time - offset
    some (⟨⟨total * second + nanos⟩, seconds == 60⟩, cs)
  else none

/-- The point in time that a text says. -/
def moment? (text : String) : Option Moment :=
  match readMoment text.toList with
  | some (moment, []) => some moment
  | _ => none

/-- What a leap second adds to the time since then: a second, once the clock shows a later time
of the day. -/
def Moment.leap (m : Moment) (now : Instant) : Int :=
  if m.isLeap ∧ (m.instant.nanos / second - 1) % day < now.nanos / second % day then second else 0

/-- Whole seconds from a moment to a later point in time; toward zero if that is earlier. -/
def secondsSince (now : Instant) (m : Moment) : Int :=
  (now.nanos - m.instant.nanos + m.leap now).tdiv second

end Backlog.Calendar
