import Backlog.Json.Reader

/-!
# JSON in bytes

A JSON value can be read from bytes that are no text as a whole.  Outside of strings every
byte has to belong to a character.  Inside of a string other bytes may stand: they leave the
string without a value, as half a character does, and that is no fault as long as the string
is only passed over.
-/

namespace Backlog.Json

/-- Where in a value a character stands. -/
inductive Spot where
  | outside
  | string
  /-- In a string, right after a backslash. -/
  | escape
  deriving DecidableEq, Repr

/-- Where the next character stands. -/
def Spot.after (c : Char) : Spot → Spot
  | .outside => if c = '\x22' then .string else .outside
  | .string => if c = '\x22' then .outside else if c = '\\' then .escape else .string
  | .escape => .string

/-- What stands for a byte that belongs to no character: two first halves in a row, which
never make a character. -/
def unreadable : List Char := ['\\', 'u', 'd', '8', '0', '0', '\\', 'u', 'd', '8', '0', '0']

/-- The characters of the bytes from a position on, unless a byte that belongs to none
stands anywhere but in a string. -/
def charsFrom (bytes : ByteArray) (position : Nat) (spot : Spot) : Option (List Char) :=
  if position < bytes.size then
    match bytes.utf8DecodeChar? position with
    | some c => (charsFrom bytes (position + c.utf8Size) (spot.after c)).map (c :: ·)
    | none =>
      if spot = .string then
        (charsFrom bytes (position + 1) .string).map (unreadable ++ ·)
      else none
  else some []
termination_by bytes.size - position
decreasing_by
  · have := c.utf8Size_pos
    omega
  · omega

/-- The value that a row of bytes is. -/
def ofBytes? (bytes : ByteArray) : Option Json := (charsFrom bytes 0 .outside).bind ofChars?

end Backlog.Json
