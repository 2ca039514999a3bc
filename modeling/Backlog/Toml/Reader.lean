import Backlog.Calendar
import Backlog.Json.Reader
import Backlog.Toml.Basic

/-!
# Reading TOML values

Readers of keys and values from a row of characters.  Every part reads from the front and
returns what is left.  A reader that is given fuel needs more of it than there are
characters.  Arrays and tables may lie in each other 79 deep at most, and a
dotted key may have at most 79 parts.
-/

namespace Backlog.Toml

/-- How deep values may lie in each other, and how long a dotted key may be. -/
def limit : Nat := 80

/-- A blank or a tab. -/
def isWs (c : Char) : Bool := c == ' ' || c == '\t'

/-- A row of characters without the blanks at its front. -/
def skipWs (cs : List Char) : List Char := cs.dropWhile isWs

/-- A character that may stand in a comment: any but the controls other than tab. -/
def isPlain (c : Char) : Bool := c == '\t' || (decide (0x20 ≤ c.toNat) && c.toNat != 0x7f)

/-- The rest after a line break, if there is one. -/
def newline? : List Char → Option (List Char)
  | '\n' :: rest => some rest
  | '\r' :: '\n' :: rest => some rest
  | _ => none

/-- The rest of a row of characters that starts with a comment, after the comment. -/
def skipComment (cs : List Char) : List Char := cs.dropWhile isPlain

/-- The end of a line: blanks, a comment if there is one, and a line break or the end of
the document. -/
def lineEnd (cs : List Char) : Option (List Char) :=
  let rest :=
    match skipWs cs with
    | '#' :: rest => skipComment rest
    | rest => rest
  match rest with
  | [] => some []
  | rest => newline? rest

/-- A row of characters without the blanks, comments and line breaks at its front. -/
def skipLines : Nat → List Char → Option (List Char)
  | 0, _ => none
  | fuel + 1, cs =>
    match skipWs cs with
    | '#' :: rest => do
      let rest ← newline? (skipComment rest)
      skipLines fuel rest
    | '\n' :: rest => skipLines fuel rest
    | '\r' :: rest => do
      let rest ← newline? ('\r' :: rest)
      skipLines fuel rest
    | rest => some rest

/-- So many hexadecimal digits as a character. -/
def readCodePoint (digits : Nat) (cs : List Char) : Option (Char × List Char) := do
  let quad := cs.take digits
  let values ← quad.mapM Json.hexValue?
  if values.length = digits then
    let n := values.foldl (fun n d => 16 * n + d) 0
    if n.isValidChar then some (Char.ofNat n, cs.drop digits) else none
  else none

/-- The character that an escape stands for, after its backslash. -/
def readEscape : List Char → Option (Char × List Char)
  | 'b' :: rest => some ('\x08', rest)
  | 'f' :: rest => some ('\x0c', rest)
  | 'n' :: rest => some ('\n', rest)
  | 'r' :: rest => some ('\r', rest)
  | 't' :: rest => some ('\t', rest)
  | 'u' :: rest => readCodePoint 4 rest
  | 'U' :: rest => readCodePoint 8 rest
  | '\\' :: rest => some ('\\', rest)
  | '\x22' :: rest => some ('\x22', rest)
  | _ => none

/-- A string between single double quotes, after the first one. -/
def readBasic : Nat → List Char → Option (List Char × List Char)
  | 0, _ => none
  | fuel + 1, cs =>
    match cs with
    | '\x22' :: rest => some ([], rest)
    | '\\' :: rest => do
      let (c, rest) ← readEscape rest
      let (more, rest) ← readBasic fuel rest
      return (c :: more, rest)
    | c :: rest =>
      if isPlain c then do
        let (more, rest) ← readBasic fuel rest
        return (c :: more, rest)
      else none
    | [] => none

/-- A string between single quotes, after the first one. -/
def readLiteral : List Char → Option (List Char × List Char)
  | '\x27' :: rest => some ([], rest)
  | c :: rest =>
    if isPlain c then do
      let (more, rest) ← readLiteral rest
      return (c :: more, rest)
    else none
  | [] => none

/-- The quotes at the end of a string over several lines: up to two more quotes than the
three that end it belong to the string.  Nothing if the string goes on. -/
def closing? (quote : Char) (cs : List Char) : Option (List Char × List Char) :=
  let quotes := cs.takeWhile (· == quote)
  let extra := min (quotes.length - 3) 2
  if quotes.length < 3 then none
  else some (List.replicate extra quote, cs.drop (3 + extra))

/-- A line break that a backslash takes out, after the backslash: it goes with the blanks
around it and all line breaks that follow. -/
def skipEscapedBreak (fuel : Nat) (cs : List Char) : Option (List Char) := do
  let rest ← newline? (skipWs cs)
  more fuel rest
where
  /-- Further blanks and line breaks. -/
  more : Nat → List Char → Option (List Char)
    | 0, cs => some cs
    | fuel + 1, cs =>
      let rest := skipWs cs
      match newline? rest with
      | some rest => more fuel rest
      | none => some rest

/-- A string between three double quotes on each side, after the first ones. -/
def readLongBasic : Nat → List Char → Option (List Char × List Char)
  | 0, _ => none
  | fuel + 1, cs =>
    match closing? '\x22' cs with
    | some (quotes, rest) => some (quotes, rest)
    | none =>
      match cs with
      | '\\' :: rest =>
        match skipEscapedBreak fuel rest with
        | some rest => readLongBasic fuel rest
        | none => do
          let (c, rest) ← readEscape rest
          let (more, rest) ← readLongBasic fuel rest
          return (c :: more, rest)
      | c :: rest =>
        if isPlain c then do
          let (more, rest) ← readLongBasic fuel rest
          return (c :: more, rest)
        else do
          let rest ← newline? (c :: rest)
          let (more, rest) ← readLongBasic fuel rest
          return ('\n' :: more, rest)
      | [] => none

/-- A string between three single quotes on each side, after the first ones. -/
def readLongLiteral : Nat → List Char → Option (List Char × List Char)
  | 0, _ => none
  | fuel + 1, cs =>
    match closing? '\x27' cs with
    | some (quotes, rest) => some (quotes, rest)
    | none =>
      match cs with
      | c :: rest =>
        if isPlain c then do
          let (more, rest) ← readLongLiteral fuel rest
          return (c :: more, rest)
        else do
          let rest ← newline? (c :: rest)
          let (more, rest) ← readLongLiteral fuel rest
          return ('\n' :: more, rest)
      | [] => none

/-- The rest without a line break at its front. -/
def dropBreak (cs : List Char) : List Char := (newline? cs).getD cs

/-- A string that starts with a quote, if there is one. -/
def readString (fuel : Nat) (cs : List Char) : Option (String × List Char) := do
  let (chars, rest) ←
    match cs with
    | '\x22' :: '\x22' :: '\x22' :: rest => readLongBasic fuel (dropBreak rest)
    | '\x22' :: rest => readBasic fuel rest
    | '\x27' :: '\x27' :: '\x27' :: rest => readLongLiteral fuel (dropBreak rest)
    | '\x27' :: rest => readLiteral rest
    | _ => none
  return (String.ofList chars, rest)

/-- A character of a key without quotes. -/
def isBare (c : Char) : Bool := c.isAlphanum || c == '-' || c == '_'

/-- One part of a key. -/
def readSimpleKey (fuel : Nat) (cs : List Char) : Option (String × List Char) :=
  match cs with
  | '\x22' :: rest => (readBasic fuel rest).map fun (k, rest) => (String.ofList k, rest)
  | '\x27' :: rest => (readLiteral rest).map fun (k, rest) => (String.ofList k, rest)
  | _ =>
    match cs.takeWhile isBare with
    | [] => none
    | k => some (String.ofList k, cs.dropWhile isBare)

/-- The parts of a dotted key, with blanks around each. -/
def readKeyParts : Nat → List Char → Option (List String × List Char)
  | 0, _ => none
  | fuel + 1, cs => do
    let (part, rest) ← readSimpleKey (fuel + 1) (skipWs cs)
    match skipWs rest with
    | '.' :: rest => do
      let (parts, rest) ← readKeyParts fuel rest
      return (part :: parts, rest)
    | rest => return ([part], rest)

/-- A dotted key. -/
def readKey (fuel : Nat) (cs : List Char) : Option (List String × List Char) := do
  let (parts, rest) ← readKeyParts fuel cs
  if parts.length < limit then some (parts, rest) else none

/-- Further digits, each of which may have an underscore before it. -/
def readMoreDigits (isDigit : Char → Bool) : List Char → Option (List Char × List Char)
  | '_' :: c :: rest =>
    if isDigit c then do
      let (more, rest) ← readMoreDigits isDigit rest
      return (c :: more, rest)
    else none
  | c :: rest =>
    if isDigit c then do
      let (more, rest) ← readMoreDigits isDigit rest
      return (c :: more, rest)
    else if c = '_' then none
    else some ([], c :: rest)
  | [] => some ([], [])

/-- Digits with underscores between them. -/
def readDigits (isDigit : Char → Bool) : List Char → Option (List Char × List Char)
  | c :: rest =>
    if isDigit c then do
      let (more, rest) ← readMoreDigits isDigit rest
      return (c :: more, rest)
    else none
  | [] => none

/-- The digits before the point: a zero alone, or digits that do not start with one. -/
def readWhole : List Char → Option (List Char × List Char)
  | '0' :: rest => some (['0'], rest)
  | cs => readDigits Char.isDigit cs

/-- The sign of a number, minus or not. -/
def readSign : List Char → Bool × List Char
  | '-' :: rest => (true, rest)
  | '+' :: rest => (false, rest)
  | rest => (false, rest)

/-- An exponent part, if there is one. -/
def readExponent : List Char → Option (Option (Bool × List Char) × List Char)
  | c :: rest =>
    if c = 'e' ∨ c = 'E' then do
      let (negative, rest) := readSign rest
      let (digits, rest) ← readDigits Char.isDigit rest
      return (some (negative, digits), rest)
    else some (none, c :: rest)
  | [] => some (none, [])

/-- A number in the decimal system.  Numbers too large for a double are refused if they are
positive. -/
def readDecimal (negative : Bool) (cs : List Char) : Option (Toml × List Char) := do
  let (whole, rest) ← readWhole cs
  let (fraction, rest) ←
    match rest with
    | '.' :: rest => readDigits Char.isDigit rest
    | rest => some ([], rest)
  let (exponent, rest) ← readExponent rest
  let n : Numeral := ⟨negative, whole, fraction, exponent⟩
  if n.isInteger then
    return (.integer (← n.intWithin? (-(twoTo 63)) (twoTo 63 - 1)), rest)
  else
    let x := n.toFloat
    if !negative && !Binary64.isFinite x then none else return (.float x, rest)

/-- A number in another system. -/
def readRadix (radix : Nat) (cs : List Char) : Option (Toml × List Char) := do
  let isDigit (c : Char) : Bool := (Json.hexValue? c).any (· < radix)
  let (digits, rest) ← readDigits isDigit cs
  let n := valueBelow radix (twoTo 63) (fun c => (Json.hexValue? c).getD 0) digits
  if n < twoTo 63 then some (.integer n, rest) else none

/-- A time of day, and the rest. -/
def skipTime (cs : List Char) : Option (List Char) := do
  let (hours, cs) ← Calendar.readTwo cs
  let cs ← Calendar.readChar ':' cs
  let (minutes, cs) ← Calendar.readTwo cs
  let cs ← Calendar.readChar ':' cs
  let (seconds, cs) ← Calendar.readTwo cs
  let (_, cs) ← Calendar.readFraction cs
  if hours ≤ 23 ∧ minutes ≤ 59 ∧ seconds ≤ 60 then some cs else none

/-- The rest after a distance from UTC, if there is one. -/
def skipOffset (cs : List Char) : Option (List Char) :=
  match cs with
  | 'Z' :: rest | 'z' :: rest => some rest
  | '+' :: _ | '-' :: _ => (Calendar.readOffset cs).map (·.2)
  | rest => some rest

/-- The rest after a date, a time or both. -/
def skipDateTime (cs : List Char) : Option (List Char) :=
  match date cs with
  | none => skipTime cs
  | some rest =>
    match rest with
    | 'T' :: more | 't' :: more | ' ' :: more =>
      match skipTime more with
      | some after => skipOffset after
      | none => some rest
    | _ => some rest
where
  /-- The rest after a date. -/
  date (cs : List Char) : Option (List Char) := do
    let (century, cs) ← Calendar.readTwo cs
    let (year, cs) ← Calendar.readTwo cs
    let cs ← Calendar.readChar '-' cs
    let (month, cs) ← Calendar.readTwo cs
    let cs ← Calendar.readChar '-' cs
    let (day, cs) ← Calendar.readTwo cs
    let year : Int := (100 * century + year : Nat)
    if 1 ≤ month ∧ month ≤ 12 ∧ 1 ≤ day ∧ day ≤ Calendar.daysInMonth year month then some cs
    else none

/-- A number, a date or a time. -/
def readNumber (cs : List Char) : Option (Toml × List Char) :=
  match skipDateTime cs with
  | some rest => some (.dateTime, rest)
  | none =>
    match cs with
    | '0' :: 'x' :: rest => readRadix 16 rest
    | '0' :: 'o' :: rest => readRadix 8 rest
    | '0' :: 'b' :: rest => readRadix 2 rest
    | _ =>
      let (negative, rest) := readSign cs
      match rest with
      | 'i' :: 'n' :: 'f' :: rest => some (.float (Binary64.infinity negative), rest)
      | 'n' :: 'a' :: 'n' :: rest => some (.float Binary64.nan, rest)
      | rest => readDecimal negative rest

mutual

/-- A value inside `depth` others. -/
def readValue : Nat → Nat → List Char → Option (Toml × List Char)
  | 0, _, _ => none
  | fuel + 1, depth, cs =>
    match cs with
    | 't' :: 'r' :: 'u' :: 'e' :: rest => some (.boolean true, rest)
    | 'f' :: 'a' :: 'l' :: 's' :: 'e' :: rest => some (.boolean false, rest)
    | '[' :: rest =>
      if limit ≤ depth + 1 then none
      else do
        let (elements, rest) ← readElements fuel (depth + 1) rest
        return (.array elements, rest)
    | '\x7b' :: rest =>
      if limit ≤ depth + 1 then none
      else
        match skipWs rest with
        | '\x7d' :: rest => some (.table [], rest)
        | rest => do
          let (entries, rest) ← readEntries fuel (depth + 1) [] rest
          return (.table (entriesToml entries), rest)
    | c :: _ =>
      if c = '\x22' ∨ c = '\x27' then
        (readString (fuel + 1) cs).map fun (s, rest) => (.string s, rest)
      else readNumber cs
    | [] => none

/-- The elements of an array that are left, and its end. -/
def readElements : Nat → Nat → List Char → Option (List Toml × List Char)
  | 0, _, _ => none
  | fuel + 1, depth, cs => do
    let rest ← skipLines (fuel + 1) cs
    match rest with
    | ']' :: rest => return ([], rest)
    | rest =>
      let (v, rest) ← readValue fuel depth rest
      match ← skipLines (fuel + 1) rest with
      | ']' :: rest => return ([v], rest)
      | ',' :: rest =>
        let (vs, rest) ← readElements fuel depth rest
        return (v :: vs, rest)
      | _ => none

/-- The entries of a table between braces that are left, and its end. -/
def readEntries : Nat → Nat → Entries → List Char → Option (Entries × List Char)
  | 0, _, _, _ => none
  | fuel + 1, depth, entries, cs => do
    let (path, rest) ← readKey (fuel + 1) cs
    match rest with
    | '=' :: rest =>
      let (v, rest) ← readValue fuel depth (skipWs rest)
      let entries ← assign entries path v
      match skipWs rest with
      | '\x7d' :: rest => return (entries, rest)
      | ',' :: rest => readEntries fuel depth entries rest
      | _ => none
    | _ => none

end

end Backlog.Toml
