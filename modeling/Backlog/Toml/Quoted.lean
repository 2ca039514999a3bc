/-!
# Writing TOML strings

A string is written in the plainest of four forms that holds it: between double quotes
without escapes, between single quotes, and then the same two over several lines.  A
string that none of them holds gets escapes.
-/

namespace Backlog.Toml

/-- The most characters of a kind in a row, when `run` of them stand before the text. -/
def longestRun (c : Char) (run : Nat) : List Char → Nat
  | [] => run
  | d :: rest => if d = c then longestRun c (run + 1) rest else max run (longestRun c 0 rest)

/-- Whether a character can only be written as an escape: a control other than tab and
line feed. -/
def needsEscape (c : Char) : Bool :=
  (decide (c.toNat < 0x20) || c.toNat == 0x7f) && c != '\t' && c != '\n'

/-- A number below sixteen as a digit. -/
def upperDigit (n : Nat) : Char := (Nat.digitChar n).toUpper

/-- An escape of a control character by its number. -/
def numberEscape (n : Nat) : List Char :=
  ['\\', 'u', '0', '0', upperDigit (n / 16), upperDigit (n % 16)]

/-- Characters with escapes where they are needed.  `quotes` double quotes stand right
before them, and up to `allowed` may stand in a row; `isLong` says whether line feeds may
stay. -/
def escaped (isLong : Bool) (allowed quotes : Nat) : List Char → List Char
  | [] => []
  | c :: rest =>
    if c = '\x22' then
      if quotes < allowed then c :: escaped isLong allowed (quotes + 1) rest
      else '\\' :: c :: escaped isLong allowed 0 rest
    else
      let written :=
        if c = '\x08' then ['\\', 'b']
        else if c = '\t' then ['\\', 't']
        else if c = '\n' then if isLong then ['\n'] else ['\\', 'n']
        else if c = '\x0c' then ['\\', 'f']
        else if c = '\r' then ['\\', 'r']
        else if c = '\\' then ['\\', '\\']
        else if c.toNat < 0x20 || c.toNat == 0x7f then numberEscape c.toNat
        else [c]
      written ++ escaped isLong allowed 0 rest

/-- Three quotes. -/
def triple (quote : Char) : List Char := [quote, quote, quote]

/-- A string between quotes, double or single. -/
def stringChars (s : String) : List Char :=
  let cs := s.toList
  let hasControl := cs.any needsEscape
  let hasBackslash := cs.contains '\\'
  let hasBreak := cs.contains '\n'
  let doubles := longestRun '\x22' 0 cs
  let singles := longestRun '\x27' 0 cs
  let start := if hasBreak then ['\n'] else []
  let double := ['\x22'] ++ escaped false 0 0 cs ++ ['\x22']
  let longDouble := triple '\x22' ++ start ++ escaped true 2 0 cs ++ triple '\x22'
  if !hasControl && !hasBackslash && doubles == 0 && !hasBreak then double
  else if !hasControl && singles == 0 && !hasBreak then ['\x27'] ++ cs ++ ['\x27']
  else if !hasControl && !hasBackslash && decide (doubles ≤ 2) then longDouble
  else if !hasControl && decide (singles ≤ 2) then
    triple '\x27' ++ start ++ cs ++ triple '\x27'
  else if hasBreak then longDouble
  else double

/-- The text of a string. -/
def stringText (s : String) : String := String.ofList (stringChars s)

end Backlog.Toml
