import ScriptHost.Toml.Basic

/-!
# Tables in the making

A document may fill a table from several places, but may define it only once. A draft remembers of
each table how it came to be: by a header of its own, on the way to a table with a header, or on
the way of a dotted key. The three operations follow a path from a table and are refused when
they would define something twice or open up what is closed.
-/

set_option autoImplicit false

namespace ScriptHost.Toml

/-- How a table came to be. -/
inductive TableOrigin where
  /-- By a header, or as the whole of a document or of a value. -/
  | header
  /-- On the way to a table with a header. -/
  | implied
  /-- On the way of a dotted key. -/
  | dotted
  deriving DecidableEq

/-- What a key of a table in the making holds. -/
inductive Draft where
  | value (value : Toml)
  | table (origin : TableOrigin) (entries : List (String × Draft))
  /-- The elements of an array of tables, the latest first. -/
  | tables (elements : List (List (String × Draft)))

/-- The entries of a table in the making. -/
abbrev Drafts := List (String × Draft)

namespace Draft

mutual

/-- What has been made. -/
def finish : Draft → Toml
  | value v => v
  | table _ entries => .table (finishEntries entries)
  | tables elements => .array (finishTables elements).reverse

/-- The entries that have been made. -/
def finishEntries : List (String × Draft) → List (String × Toml)
  | [] => []
  | (key, d) :: rest => (key, finish d) :: finishEntries rest

/-- The tables that have been made. -/
def finishTables : List (List (String × Draft)) → List Toml
  | [] => []
  | entries :: rest => .table (finishEntries entries) :: finishTables rest

end

/-- Follows a path from a table and changes the table it leads to. Tables that are missing on the
way are made with an origin; of an array of tables the latest is taken; `enter` tells which
tables may be entered. -/
def descend (made : TableOrigin) (enter : TableOrigin → Bool)
    (change : TableOrigin → Drafts → Option Drafts) :
    List String → TableOrigin → Drafts → Option Drafts
  | [], origin, entries => change origin entries
  | key :: path, _, entries =>
    match Entries.find? key entries with
    | none => do
      let inner ← descend made enter change path made []
      return Entries.put key (.table made inner) entries
    | some (.value _) => none
    | some (.table origin inner) => do
      guard (enter origin)
      let inner ← descend made enter change path origin inner
      return Entries.put key (.table origin inner) entries
    | some (.tables []) => none
    | some (.tables (latest :: others)) => do
      let inner ← descend made enter change path .header latest
      return Entries.put key (.tables (inner :: others)) entries

/-- Defines a table by a header. A table that was only implied is defined now. -/
def defineTable (path : List String) (key : String) : Drafts → Option Drafts :=
  descend .implied (fun _ => true)
    (fun _ entries =>
      match Entries.find? key entries with
      | none => some (Entries.put key (.table .header []) entries)
      | some (.table .implied inner) => some (Entries.put key (.table .header inner) entries)
      | _ => none)
    path .header

/-- Adds a table to an array of tables. -/
def addTable (path : List String) (key : String) : Drafts → Option Drafts :=
  descend .implied (fun _ => true)
    (fun _ entries =>
      match Entries.find? key entries with
      | none => some (Entries.put key (.tables [[]]) entries)
      | some (.tables elements) => some (Entries.put key (.tables ([] :: elements)) entries)
      | _ => none)
    path .header

/-- Gives a value to a key that may be dotted. A table with a header is not entered by a dotted
key, and a table that a dotted key leads to has to be made by dotted keys. -/
def assign (path : List String) (key : String) (v : Toml) : Drafts → Option Drafts :=
  descend .dotted (fun origin => origin != .header)
    (fun origin entries =>
      if (path.isEmpty || origin == .dotted) && (Entries.find? key entries).isNone then
        some (Entries.put key (.value v) entries)
      else none)
    path .header

/-- Gives a value to a key of the table that a header leads to. -/
def assignIn (header path : List String) (key : String) (v : Toml) : Drafts → Option Drafts :=
  descend .implied (fun _ => true) (fun _ => assign path key v) header .header

/-- The table of an inline table's keys and values. -/
def ofPairs (pairs : List ((List String × String) × Toml)) : Option Toml := do
  let entries ← pairs.foldlM (fun entries ((path, key), v) => assign path key v entries) []
  return .table (finishEntries entries)

end Draft

end ScriptHost.Toml
