/-!
# Lines of a file

A file is a row of bytes.  A line ends at a line feed, and one carriage return
just before the line feed belongs to the ending.  Bytes after the last line feed
are a line of their own, without an ending to cut.
-/

namespace Backlog.Text

/-- The bytes of each line, endings cut off; `line` holds the bytes of the current
line in reverse. -/
def splitLines (line : List UInt8) : List UInt8 → List (List UInt8)
  | [] => if line.isEmpty then [] else [line.reverse]
  | b :: rest =>
    if b = 10 then
      let kept :=
        match line with
        | 13 :: before => before
        | _ => line
      kept.reverse :: splitLines [] rest
    else splitLines (b :: line) rest

/-- The lines of a file, as bytes. -/
def byteLines (bytes : ByteArray) : List (List UInt8) := splitLines [] bytes.toList

/-- A row of bytes as text, if it is well-formed UTF-8. -/
def ofBytes? (bytes : List UInt8) : Option String := String.fromUTF8? ⟨bytes.toArray⟩

end Backlog.Text
