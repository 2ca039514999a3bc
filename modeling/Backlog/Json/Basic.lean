import Backlog.Number.Layout

/-!
# JSON documents

A JSON value as it is written: numbers keep their digits, and objects keep all their
members in order.  A value is written on one line, or with one member or element to a
line.
-/

namespace Backlog

/-- A JSON value. -/
inductive Json where
  | null
  | bool (b : Bool)
  | number (n : Numeral)
  | string (s : String)
  /-- A string with an escape that names half of a character, or an object with such a
  member name: it is well-formed, but it has no value. -/
  | halfCharacter
  | array (elements : List Json)
  | object (members : List (String × Json))
  deriving Repr, Inhabited

namespace Json

/-- The layout of doubles: positional from `10^(-5)` up to below `10^16`, and always
with a point or an exponent. -/
def layout : Layout := ⟨some (16, 4), true, .even⟩

/-- The number of an integer. -/
def int (i : Int) : Json := .number (.ofInt i)

/-- The number of a double; one that is not finite has none. -/
def double (x : Float) : Json :=
  match layout.numeral? x with
  | some n => .number n
  | none => .null

/-- A string, or null for no string. -/
def stringOrNull : Option String → Json
  | some s => .string s
  | none => .null

/-- A number below sixteen as a digit. -/
def hexDigit (n : Nat) : Char := Nat.digitChar n

/-- A character inside a string. -/
def charChars (c : Char) : List Char :=
  if c = '\x22' then ['\\', '\x22']
  else if c = '\\' then ['\\', '\\']
  else if c = '\n' then ['\\', 'n']
  else if c = '\r' then ['\\', 'r']
  else if c = '\t' then ['\\', 't']
  else if c = '\x08' then ['\\', 'b']
  else if c = '\x0c' then ['\\', 'f']
  else if c.toNat < 0x20 then
    ['\\', 'u', '0', '0', hexDigit (c.toNat / 16), hexDigit (c.toNat % 16)]
  else [c]

/-- A string with its quotes. -/
def stringChars (s : String) : List Char :=
  '\x22' :: s.toList.flatMap charChars ++ ['\x22']

mutual

/-- A value on one line. -/
def chars : Json → List Char
  | .null => ['n', 'u', 'l', 'l']
  | .bool true => ['t', 'r', 'u', 'e']
  | .bool false => ['f', 'a', 'l', 's', 'e']
  | .number n => n.chars
  | .string s => stringChars s
  | .halfCharacter => ['\x22', '\\', 'u', 'd', '8', '0', '0', '\x22']
  | .array [] => ['[', ']']
  | .array (v :: vs) => '[' :: (v.chars ++ elementsChars vs)
  | .object [] => ['\x7b', '\x7d']
  | .object ((k, v) :: ms) =>
    '\x7b' :: (stringChars k ++ ':' :: (v.chars ++ membersChars ms))

/-- The further elements of an array and its end. -/
def elementsChars : List Json → List Char
  | [] => [']']
  | v :: vs => ',' :: (v.chars ++ elementsChars vs)

/-- The further members of an object and its end. -/
def membersChars : List (String × Json) → List Char
  | [] => ['\x7d']
  | (k, v) :: ms => ',' :: (stringChars k ++ ':' :: (v.chars ++ membersChars ms))

end

/-- A new line, indented by two blanks per level. -/
def newLine (level : Nat) : List Char := '\n' :: List.replicate (2 * level) ' '

mutual

/-- A value with one member or element to a line, inside `level` others. -/
def indented (level : Nat) : Json → List Char
  | .array (v :: vs) =>
    '[' :: (newLine (level + 1) ++ v.indented (level + 1) ++ indentedElements level vs)
  | .object ((k, v) :: ms) =>
    '\x7b' :: (newLine (level + 1) ++ stringChars k ++ ':' :: ' ' :: v.indented (level + 1)
      ++ indentedMembers level ms)
  | v => v.chars

/-- The further elements of an array and its end. -/
def indentedElements (level : Nat) : List Json → List Char
  | [] => newLine level ++ [']']
  | v :: vs =>
    ',' :: (newLine (level + 1) ++ v.indented (level + 1) ++ indentedElements level vs)

/-- The further members of an object and its end. -/
def indentedMembers (level : Nat) : List (String × Json) → List Char
  | [] => newLine level ++ ['\x7d']
  | (k, v) :: ms =>
    ',' :: (newLine (level + 1) ++ stringChars k ++ ':' :: ' ' :: v.indented (level + 1)
      ++ indentedMembers level ms)

end

/-- Put a member before the first one with a larger name. -/
def insertMember (m : String × Json) : List (String × Json) → List (String × Json)
  | [] => [m]
  | n :: rest => if m.1 < n.1 then m :: n :: rest else n :: insertMember m rest

mutual

/-- A value with the members of all its objects in the order of their names. -/
def sorted : Json → Json
  | .array vs => .array (sortedElements vs)
  | .object ms => .object (sortedMembers ms)
  | v => v

/-- The elements of an array, each sorted. -/
def sortedElements : List Json → List Json
  | [] => []
  | v :: vs => v.sorted :: sortedElements vs

/-- The members of an object in order, each sorted. -/
def sortedMembers : List (String × Json) → List (String × Json)
  | [] => []
  | (k, v) :: ms => insertMember (k, v.sorted) (sortedMembers ms)

end

/-- The text of a value on one line. -/
def compact (v : Json) : String := String.ofList v.chars

/-- The text of a value over several lines. -/
def pretty (v : Json) : String := String.ofList (v.indented 0)

end Json

end Backlog
