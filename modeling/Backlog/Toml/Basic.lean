/-!
# TOML documents

A TOML value, and the tables of a document while it is put together.  A table can come
into being in three ways: by its own header, on the way to another header, and by a
dotted key.  Each of them may be extended only in its own way, and a finished value not
at all.
-/

namespace Backlog

/-- A TOML value. -/
inductive Toml where
  | string (s : String)
  | integer (i : Int)
  | float (x : Float)
  | boolean (b : Bool)
  /-- A date, a time, or both. -/
  | dateTime
  | array (elements : List Toml)
  | table (entries : List (String × Toml))
  deriving Inhabited

namespace Toml

/-- What stands under a key while a document is put together. -/
inductive Node where
  /-- A finished value. -/
  | value (v : Toml)
  /-- A table.  It is implicit if it has no header of its own, and dotted if it came from
  a dotted key. -/
  | table (isImplicit isDotted : Bool) (entries : List (String × Node))
  /-- An array of tables, each from a header of its own; the last one stands first. -/
  | tables (elements : List (List (String × Node)))
  deriving Inhabited

/-- The entries of a table under construction. -/
abbrev Entries := List (String × Node)

/-- What stands under a key. -/
def Entries.find? (entries : Entries) (key : String) : Option Node :=
  (List.find? (fun e => e.1 == key) entries).map (·.2)

/-- Put something else under a key that is there. -/
def Entries.replace (entries : Entries) (key : String) (node : Node) : Entries :=
  entries.map fun e => if e.1 == key then (key, node) else e

/-- Leave out a key. -/
def Entries.erase (entries : Entries) (key : String) : Entries :=
  entries.filter fun e => e.1 != key

/-- Walk along keys from a table, making the tables that are missing, and change the table
at the end; `change` is told whether that table came from a dotted key.  A dotted key may
not walk into a table that has a header. -/
def descend {β : Type} (isDottedKey : Bool) (change : Bool → Entries → Option (β × Entries)) :
    List String → Bool → Entries → Option (β × Entries)
  | [], isDotted, entries => change isDotted entries
  | key :: rest, _, entries =>
    match entries.find? key with
    | none => do
      let (b, new) ← descend isDottedKey change rest isDottedKey []
      return (b, entries ++ [(key, .table true isDottedKey new)])
    | some (.value _) => none
    | some (.table isImplicit isDotted inner) =>
      if isDottedKey && !isImplicit then none
      else do
        let (b, new) ← descend isDottedKey change rest isDotted inner
        return (b, entries.replace key (.table isImplicit isDotted new))
    | some (.tables []) => none
    | some (.tables (last :: before)) => do
      let (b, new) ← descend isDottedKey change rest false last
      return (b, entries.replace key (.tables (new :: before)))

/-- Put a value under a key that is free.  A table takes it either always through a dotted
key or never. -/
def place (isThroughDots : Bool) (key : String) (v : Toml) (isDotted : Bool)
    (entries : Entries) : Option (Unit × Entries) :=
  if isDotted != isThroughDots then none
  else if (entries.find? key).isSome then none
  else some ((), entries ++ [(key, .value v)])

/-- Put a value under a dotted key. -/
def assign (entries : Entries) (path : List String) (v : Toml) : Option Entries := do
  let key ← path.getLast?
  let above := path.dropLast
  let ((), entries) ← descend true (place (!above.isEmpty) key v) above false entries
  return entries

mutual

/-- The value of what stands under a key. -/
def Node.toToml : Node → Toml
  | .value v => v
  | .table _ _ entries => .table (entriesToml entries)
  | .tables elements => .array (tablesToml elements).reverse

/-- The values under the keys of a table. -/
def entriesToml : List (String × Node) → List (String × Toml)
  | [] => []
  | (key, node) :: rest => (key, node.toToml) :: entriesToml rest

/-- The tables of an array of tables. -/
def tablesToml : List (List (String × Node)) → List Toml
  | [] => []
  | entries :: rest => .table (entriesToml entries) :: tablesToml rest

end

end Toml

end Backlog
