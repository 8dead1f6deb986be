import ExportAtlas.Toml.Draft
import ExportAtlas.Toml.Number
/-!
# Reading TOML

A document is a list of statements: a key set to a value, or the header of
the table that the statements after it belong to. Values nest less than
eighty deep, and keys have less than eighty parts.
-/

namespace ExportAtlas

namespace Toml

/-! ## Keys -/

/-- A character of a key without quotes. -/
def isBare (c : Char) : Bool := c.isAlphanum || c == '_' || c == '-'

/-- One part of a key, with quotes or without. -/
def keyPart : Read String
  | '"' :: s => basicFrom [] s
  | '\'' :: s => literal s
  | s =>
    match s.takeWhile isBare with
    | [] => none
    | name => some (String.ofList name, s.dropWhile isBare)

/-- A key of no more than so many parts with dots between them; blanks may
stand around each. -/
def keyWithin : (parts : Nat) → Read (List String)
  | 0, _ => none
  | parts + 1, s => do
    let (part, s) ← keyPart (skipSpace s)
    match skipSpace s with
    | '.' :: s => do
      let (more, s) ← keyWithin parts s
      some (part :: more, s)
    | s => some ([part], s)

/-- How deep values nest, and of how many parts a key consists, at most. -/
def depthLimit : Nat := 79

/-- A key. -/
def key : Read (List String) := keyWithin depthLimit

/-! ## Values -/

/-- The rest of an array, from the start of an item on; a comma may stand
behind the last one. `fuel` bounds the number of items. -/
def arrayFrom (item : Read Toml) : (fuel : Nat) → (run : List Toml) → Read Toml
  | 0, _, _ => none
  | fuel + 1, run, s => do
    match ← skipBlanks false s with
    | ']' :: s => some (.array run.reverse, s)
    | s => do
      let (found, s) ← item s
      match ← skipBlanks false s with
      | ',' :: s => arrayFrom item fuel (found :: run) s
      | ']' :: s => some (.array (found :: run).reverse, s)
      | _ => none

/-- A key, the sign after it and its value. -/
def pair (item : Read Toml) : Read (List String × Toml) := fun s => do
  let (k, s) ← key s
  let s ← expect '=' s
  let (v, s) ← item (skipSpace s)
  some ((k, v), s)

/-- The rest of the pairs between braces, from the start of one on. `fuel`
bounds their number. -/
def pairsFrom (item : Read Toml) :
    (fuel : Nat) → (run : List (List String × Toml)) → Read (List (List String × Toml))
  | 0, _, _ => none
  | fuel + 1, run, s => do
    let (found, s) ← pair item s
    match skipSpace s with
    | ',' :: s => pairsFrom item fuel (found :: run) s
    | '\x7d' :: s => some ((found :: run).reverse, s)
    | _ => none

/-- The rest of a table between braces. -/
def bracesFrom (item : Read Toml) : Read Toml := fun s =>
  match skipSpace s with
  | '\x7d' :: s => some (.table [], s)
  | _ => do
    let (pairs, s) ← pairsFrom item s.length [] s
    some (← ofPairs pairs, s)

/-- A value in which arrays and tables nest no deeper than `depth`. -/
def valueWithin : (depth : Nat) → Read Toml
  | _, '"' :: s => (text ('"' :: s)).map fun (t, s) => (.string t, s)
  | _, '\'' :: s => (text ('\'' :: s)).map fun (t, s) => (.string t, s)
  | depth, '[' :: s =>
    match depth with
    | 0 => none
    | depth + 1 => arrayFrom (valueWithin depth) s.length [] s
  | depth, '\x7b' :: s =>
    match depth with
    | 0 => none
    | depth + 1 => bracesFrom (valueWithin depth) s
  | _, 't' :: 'r' :: 'u' :: 'e' :: s => some (.boolean true, s)
  | _, 'f' :: 'a' :: 'l' :: 's' :: 'e' :: s => some (.boolean false, s)
  | _, s => numeric s

/-- A value. -/
def value : Read Toml := valueWithin depthLimit

/-! ## Statements -/

/-- A document being read: what it holds so far, and the header in force. -/
structure Progress where
  entries : Entries
  header : List String

namespace Progress

/-- Nothing read yet. -/
def start : Progress := ⟨[], []⟩

/-- A document after a header, which opens a table as `change` says. -/
def enter (p : Progress) (change : String → Origin → Entries → Option Entries)
    (header : List String) : Option Progress := do
  let last ← header.getLast?
  let entries ← Entries.changeAt false (change last) header.dropLast .named p.entries
  some ⟨entries, header⟩

/-- A document after a key is set in the table of the header in force. -/
def set (p : Progress) (k : List String) (v : Toml) : Option Progress := do
  let entries ← Entries.changeAt false (Entries.set k v) p.header .named p.entries
  some { p with entries }

/-- A document after one statement, and what follows its line. -/
def statement (p : Progress) : List Char → Option (Progress × List Char)
  | '[' :: '[' :: s => do
    let (header, s) ← key s
    let s ← expect ']' s
    let s ← expect ']' s
    some (← p.enter Entries.openNext header, ← lineEnd s)
  | '[' :: s => do
    let (header, s) ← key s
    let s ← expect ']' s
    some (← p.enter Entries.openTable header, ← lineEnd s)
  | s => do
    let ((k, v), s) ← pair value s
    some (← p.set k v, ← lineEnd s)

/-- A document to its end; `fuel` bounds the number of lines. -/
def run : (fuel : Nat) → Progress → List Char → Option Progress
  | 0, _, _ => none
  | fuel + 1, p, s =>
    match skipSpace s with
    | [] => some p
    | c :: s =>
      if c = '#' ∨ c = '\n' ∨ c = '\r' then (lineEnd (c :: s)).bind (run fuel p)
      else (p.statement (c :: s)).bind fun (p, s) => run fuel p s

end Progress

/-- The table that a document writes; `none` if it is not TOML. -/
def read? (document : String) : Option Toml :=
  let s :=
    match document.toList with
    | '\uFEFF' :: s => s
    | s => s
  (Progress.run (s.length + 1) .start s).map fun p => .table (Item.finishEntries p.entries)

end Toml

end ExportAtlas
