import ExportAtlas.Exports
import ExportAtlas.Path
import ExportAtlas.Json.Basic
/-!
# File records

A source file of the project: its path, its name and its exports. A record
is written as a JSON object and read back from one.
-/

namespace ExportAtlas

/-- One source file and what it exports. -/
structure FileRecord where
  path : Path
  name : String
  exports : Exports
  deriving DecidableEq, Repr, Inhabited

namespace FileRecord

/-- The record of a file, named by the last component of its path. -/
def of (path : Path) (exports : Exports) : FileRecord :=
  { path, name := (path.fileName?.map Text.Utf8.toStringLossy).getD "", exports }

/-- The components of the file's path under a root; `none` if it does not lie
there. -/
def relativeParts? (file : FileRecord) (root : Path) : Option (List String) :=
  file.path.relativeParts? root

end FileRecord

/-! ## JSON -/

/-- The members that write the exports of a file. -/
def Exports.toMembers (e : Exports) : List (String × Json) :=
  [("functions", .strings e.functions), ("constants", .strings e.constants),
    ("types", .strings e.types), ("interfaces", .strings e.interfaces),
    ("classes", .strings e.classes)] ++
  (e.defaultExport.map fun name => ("defaultExport", Json.string name)).toList

/-- The exports that the members of an object write. The five lists are
required; a default export may be absent or null. -/
def Exports.ofMembers? (members : List (String × Json)) : Option Exports := do
  let list (name : String) := (members.lookup name).bind Json.strings?
  let defaultExport ←
    match members.lookup "defaultExport" with
    | none => some none
    | some .null => some none
    | some (.string s) => some (some s)
    | some _ => none
  some ⟨← list "functions", ← list "constants", ← list "types", ← list "interfaces",
    ← list "classes", defaultExport⟩

namespace FileRecord

/-- A record as a JSON object; a path that is not UTF-8 cannot be written. -/
def toJson? (file : FileRecord) : Option Json :=
  file.path.toString?.map fun path =>
    .object ([("path", .string path), ("name", .string file.name)] ++ file.exports.toMembers)

/-- The record that a JSON object writes; members it does not know are passed
over. -/
def ofJson? (j : Json) : Option FileRecord := do
  let members ← j.object?
  let path ← (members.lookup "path").bind Json.string?
  let name ← (members.lookup "name").bind Json.string?
  some ⟨Path.ofString path, name, ← Exports.ofMembers? members⟩

end FileRecord

end ExportAtlas
