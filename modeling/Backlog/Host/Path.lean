/-!
# Paths

A path is a text of names with slashes between them.  Empty names and single dots say
nothing, apart from a dot at the very front.  A path that starts with a slash starts at
the root.
-/

namespace Backlog.Path

/-- Whether a path starts at the root. -/
def isAbsolute (path : String) : Bool := path.toList.head? == some '/'

/-- The pieces between the slashes of a row of characters. -/
@[irreducible]
def cut : List Char → List (List Char)
  | [] => [[]]
  | c :: rest =>
    if c = '/' then [] :: cut rest
    else
      match cut rest with
      | [] => [[c]]
      | piece :: pieces => (c :: piece) :: pieces

/-- The names between the slashes of a path, meaningless ones included. -/
def pieces (path : String) : List String := (cut path.toList).map String.ofList

/-- The names of a path that say where it leads. -/
def names (path : String) : List String :=
  (pieces path).filter fun name => name ≠ "" ∧ name ≠ "."

/-- The names of a path with all dots, one for each step that it takes. -/
def steps (path : String) : List String := (pieces path).filter fun name => name ≠ ""

/-- Whether a path ends in a slash. -/
def endsInSlash (path : String) : Bool := path.toList.getLast? == some '/'

/-- Whether two paths are the same but for what says nothing in them. -/
def isSame (a b : String) : Bool :=
  isAbsolute a == isAbsolute b && ((pieces a).head? == some ".") == ((pieces b).head? == some ".")
    && names a == names b

/-- A path seen from a directory. -/
def join (base path : String) : String :=
  if isAbsolute path || base.isEmpty then path
  else if base.endsWith "/" then base ++ path
  else base ++ "/" ++ path

/-- Drop the slashes and meaningless dots at the end of a row of characters, given in
reverse.  A slash or a dot at the very front stays. -/
def trimReversed : List Char → List Char
  | '/' :: c :: rest => trimReversed (c :: rest)
  | '.' :: '/' :: c :: rest => trimReversed (c :: rest)
  | '.' :: '/' :: [] => ['/']
  | cs => cs

/-- A path without slashes and meaningless dots at its end. -/
def trimmed (path : String) : String :=
  String.ofList (trimReversed path.toList.reverse).reverse

/-- The last name of a path, if it leads anywhere. -/
def last? (path : String) : Option String :=
  if (names path).isEmpty ∧ ¬(pieces path).head? = some "." then none
  else (pieces (trimmed path)).getLast?

/-- The path of the directory that a path lies in. -/
def parent? (path : String) : Option String :=
  match last? path with
  | none => none
  | some last =>
    let front := (trimmed path).toList.reverse.drop last.length
    some (String.ofList (trimReversed front).reverse)

/-- The name of the file that a path leads to. -/
def fileName? (path : String) : Option String :=
  match (names path).getLast? with
  | some name => if name = ".." then none else some name
  | none => none

/-- A name without its last dot and what follows; a dot at the front does not count. -/
def stem (name : String) : String :=
  let reversed := name.toList.reverse
  match reversed.dropWhile (· ≠ '.') with
  | [] => name
  | '.' :: [] => name
  | _ :: front => String.ofList front.reverse

/-- The path with another ending in place of the ending of its file name.  If nothing
follows a name of two dots and an ending, then what is left without that ending leads
upwards, and it takes no other ending. -/
def withExtension (path extension : String) : String :=
  match fileName? path with
  | none => path
  | some name =>
    let front := String.ofList ((trimmed path).toList.reverse.drop name.length).reverse
    if stem name = "." ∧ trimmed path = path then front ++ ".."
    else front ++ stem name ++ "." ++ extension

end Backlog.Path
