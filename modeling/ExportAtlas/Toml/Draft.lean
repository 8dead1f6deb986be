import ExportAtlas.KeyedList
import ExportAtlas.Toml.Basic
/-!
# TOML tables in the making

The statements of a document fill one table, in any order of its parts. What
a later statement may still do to a table depends on how the table came to
be: a header names a table once, and dotted keys add only to tables that
dotted keys have made.
-/

namespace ExportAtlas

namespace Toml

/-- How a table came to be. -/
inductive Origin where
  /-- By a header of its own, or between braces. -/
  | named
  /-- On the way to the table of a longer header. -/
  | passed
  /-- On the way of a dotted key. -/
  | dotted
  deriving DecidableEq, Repr

/-- What a key stands for in a table in the making. -/
inductive Item where
  | value (v : Toml)
  | table (origin : Origin) (entries : List (String × Item))
  /-- Tables under one repeated header; the last one is open. -/
  | tables (earlier : List (List (String × Item))) (last : List (String × Item))
  deriving Inhabited, Repr

/-- The keys of a table in the making. -/
abbrev Entries := List (String × Item)

namespace Item

mutual

/-- The finished value of an item. -/
def finish : Item → Toml
  | .value v => v
  | .table _ entries => .table (finishEntries entries)
  | .tables earlier last => .array (finishTables earlier ++ [.table (finishEntries last)])

/-- The finished entries of a table. -/
def finishEntries : List (String × Item) → List (String × Toml)
  | [] => []
  | (key, item) :: entries => (key, item.finish) :: finishEntries entries

/-- The finished tables under a repeated header. -/
def finishTables : List (List (String × Item)) → List Toml
  | [] => []
  | entries :: more => .table (finishEntries entries) :: finishTables more

end

end Item

namespace Entries

/-- Entries after a change to the table at the end of a path. Tables that are
missing on the way are made; a value on the way cannot be passed, and dotted
keys cannot pass a table with a header. -/
def changeAt (isDotted : Bool) (change : Origin → Entries → Option Entries) :
    (path : List String) → Origin → Entries → Option Entries
  | [], origin, entries => change origin entries
  | key :: path, _, entries => do
    let item ←
      match entries.lookup key with
      | none =>
        let origin := if isDotted then Origin.dotted else .passed
        (changeAt isDotted change path origin []).map (Item.table origin)
      | some (.value _) => none
      | some (.table origin inner) =>
        if isDotted ∧ origin = .named then none
        else (changeAt isDotted change path origin inner).map (Item.table origin)
      | some (.tables earlier last) =>
        (changeAt isDotted change path .named last).map (Item.tables earlier)
    some (KeyedList.put key item entries)

/-- A vacant key set to a value. The key stands alone or behind dots, and the
table must have come to be in the same way. -/
def assign (isDotted : Bool) (key : String) (v : Toml) (origin : Origin) (entries : Entries) :
    Option Entries :=
  if (origin = .dotted) = isDotted ∧ (entries.lookup key).isNone then
    some (KeyedList.put key (.value v) entries)
  else none

/-- Entries after the statement that sets a key, dots and all, to a value. -/
def set (key : List String) (v : Toml) (origin : Origin) (entries : Entries) : Option Entries :=
  match key.getLast? with
  | none => none
  | some last =>
    let path := key.dropLast
    changeAt true (assign (!path.isEmpty) last v) path origin entries

/-- Entries after a header has named a table for the first time. -/
def openTable (key : String) (_ : Origin) (entries : Entries) : Option Entries :=
  match entries.lookup key with
  | none => some (KeyedList.put key (.table .named []) entries)
  | some (.table .passed inner) => some (KeyedList.put key (.table .named inner) entries)
  | some _ => none

/-- Entries after a repeated header has opened its next table. -/
def openNext (key : String) (_ : Origin) (entries : Entries) : Option Entries :=
  match entries.lookup key with
  | none => some (KeyedList.put key (.tables [] []) entries)
  | some (.tables earlier last) => some (KeyedList.put key (.tables (earlier ++ [last]) []) entries)
  | some _ => none

end Entries

/-- The table that the pairs between braces write. -/
def ofPairs (pairs : List (List String × Toml)) : Option Toml := do
  let entries ← pairs.foldlM (fun entries (key, v) => Entries.set key v .named entries) []
  some (.table (Item.finishEntries entries))

end Toml

end ExportAtlas
