import Backlog.Toml.Reader

/-!
# Reading TOML documents

A document is a row of statements, one to a line: headers of tables and keys with values.
A header closes the table before it and opens another.
-/

namespace Backlog.Toml

/-- A line of a document. -/
inductive Statement where
  /-- The header of a table. -/
  | header (path : List String)
  /-- The header of one more table of an array. -/
  | element (path : List String)
  /-- A value under a key. -/
  | entry (path : List String) (v : Toml)

/-- The statement at the front of a document, and the rest.  There has to be more fuel than
there are characters. -/
def readStatement (fuel : Nat) (cs : List Char) : Option (Statement × List Char) :=
  match cs with
  | '[' :: '[' :: rest => do
    let (path, rest) ← readKey fuel rest
    match rest with
    | ']' :: ']' :: rest => return (.element path, ← lineEnd rest)
    | _ => none
  | '[' :: rest => do
    let (path, rest) ← readKey fuel rest
    match rest with
    | ']' :: rest => return (.header path, ← lineEnd rest)
    | _ => none
  | cs => do
    let (path, rest) ← readKey fuel cs
    match rest with
    | '=' :: rest =>
      let (v, rest) ← readValue fuel 0 (skipWs rest)
      return (.entry path v, ← lineEnd rest)
    | _ => none

/-- The statements of a document. -/
def readStatements : Nat → List Char → Option (List Statement)
  | 0, _ => none
  | fuel + 1, cs =>
    match skipWs cs with
    | [] => some []
    | '#' :: rest => do
      let rest ← lineEnd ('#' :: rest)
      readStatements fuel rest
    | '\n' :: rest => readStatements fuel rest
    | '\r' :: rest => do
      let rest ← newline? ('\r' :: rest)
      readStatements fuel rest
    | rest => do
      let (statement, rest) ← readStatement (fuel + 1) rest
      let statements ← readStatements fuel rest
      return statement :: statements

/-- A document under construction: the closed tables, and the one that is open. -/
structure Draft where
  root : Entries
  /-- Where the open table belongs; the root if there are no keys. -/
  path : List String
  /-- Whether the open table is one more of an array. -/
  isElement : Bool
  entries : Entries

namespace Draft

/-- A document without statements. -/
def start : Draft := ⟨[], [], false, []⟩

/-- Put a table under a free key. -/
def putTable (key : String) (table : Entries) (_ : Bool) (entries : Entries) :
    Option (Unit × Entries) :=
  some ((), entries ++ [(key, .table false false table)])

/-- Put one more table into an array. -/
def putElement (key : String) (table : Entries) (_ : Bool) (entries : Entries) :
    Option (Unit × Entries) :=
  match entries.find? key with
  | some (.tables elements) => some ((), entries.replace key (.tables (table :: elements)))
  | none => some ((), entries ++ [(key, .tables [table])])
  | some _ => none

/-- Take out the table under a key, if it may still get a header; an empty table if there
is none. -/
def takeTable (key : String) (_ : Bool) (entries : Entries) : Option (Entries × Entries) :=
  match entries.find? key with
  | none => some ([], entries)
  | some (.table true false inner) => some (inner, entries.erase key)
  | some _ => none

/-- Make room for an array of tables under a key. -/
def checkElement (key : String) (_ : Bool) (entries : Entries) : Option (Unit × Entries) :=
  match entries.find? key with
  | none => some ((), entries ++ [(key, .tables [])])
  | some (.tables _) => some ((), entries)
  | some _ => none

/-- Close the open table: put it where it belongs. -/
def close (d : Draft) : Option Entries :=
  match d.path.getLast? with
  | none => some d.entries
  | some key => do
    let put := if d.isElement then putElement key d.entries else putTable key d.entries
    let ((), root) ← descend false put d.path.dropLast false d.root
    return root

/-- Take in a statement. -/
def step (d : Draft) : Statement → Option Draft
  | .entry path v => do
    let entries ← assign d.entries path v
    return { d with entries }
  | .header path => do
    let root ← d.close
    let key ← path.getLast?
    let (entries, root) ← descend false (takeTable key) path.dropLast false root
    return ⟨root, path, false, entries⟩
  | .element path => do
    let root ← d.close
    let key ← path.getLast?
    let ((), root) ← descend false (checkElement key) path.dropLast false root
    return ⟨root, path, true, []⟩

end Draft

/-- The document that some statements make. -/
def ofStatements? (statements : List Statement) : Option Toml := do
  let d ← statements.foldlM Draft.step Draft.start
  let root ← d.close
  return .table (entriesToml root)

/-- The document that a text is.  A byte order mark at its front says nothing. -/
def ofText? (text : String) : Option Toml := do
  let cs :=
    match text.toList with
    | '\uFEFF' :: rest => rest
    | cs => cs
  let statements ← readStatements (cs.length + 1) cs
  ofStatements? statements

end Backlog.Toml
