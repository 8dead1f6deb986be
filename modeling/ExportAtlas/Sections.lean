import ExportAtlas.FileRecord
import ExportAtlas.KeyedList
import ExportAtlas.Text.Case
/-!
# Sections

The files of a project in named groups. Groups stand in the order in which
their names first came up, and the files of a group in the order in which
they were added. A table tells where the group of a name stands, so that a
name is found without going through the groups.
-/

namespace ExportAtlas

/-- A named group of files. -/
structure Section where
  name : String
  files : List FileRecord
  deriving DecidableEq, Repr, Inhabited

/-- A group with one more file at its end. -/
def Section.add (s : Section) (file : FileRecord) : Section :=
  { s with files := s.files ++ [file] }

/-- The groups of a project. -/
structure Sections where
  entries : List Section
  /-- Where among the entries the group of each name stands. -/
  index : List (String × Nat)
  deriving DecidableEq, Repr, Inhabited

namespace Sections

/-- No groups. -/
def empty : Sections := ⟨[], []⟩

/-- Where the group of a name stands. -/
def index? (sections : Sections) (name : String) : Option Nat := sections.index.lookup name

/-- One more file under a name: at the end of the group of that name, or in a
new group at the end. -/
def push (sections : Sections) (name : String) (file : FileRecord) : Sections :=
  match sections.index? name with
  | some i => { sections with entries := sections.entries.modify i fun s => s.add file }
  | none =>
    { entries := sections.entries ++ [⟨name, [file]⟩]
      index := KeyedList.put name sections.entries.length sections.index }

/-- The files under a name. -/
def get? (sections : Sections) (name : String) : Option (List FileRecord) :=
  (sections.index? name).bind fun i => sections.entries[i]?.map Section.files

/-- There is a group of that name. -/
def contains (sections : Sections) (name : String) : Bool := (sections.index? name).isSome

/-- The names of the groups. -/
def names (sections : Sections) : List String := sections.entries.map Section.name

/-- The number of groups. -/
def size (sections : Sections) : Nat := sections.entries.length

/-- There are no groups. -/
def isEmpty (sections : Sections) : Bool := sections.entries.isEmpty

/-- The files of all groups, group by group. -/
def files (sections : Sections) : List FileRecord := sections.entries.flatMap Section.files

/-- The number of files in all groups. -/
def fileCount (sections : Sections) : Nat := sections.files.length

/-- The groups whose name holds a pattern, without regard to case. -/
def matching (sections : Sections) (pattern : String) : List Section :=
  sections.entries.filter fun s => Text.contains (Text.lower s.name) (Text.lower pattern)

/-- The groups as a JSON object; a path that is not UTF-8 cannot be written. -/
def toJson? (sections : Sections) : Option Json :=
  (sections.entries.mapM fun (s : Section) =>
    (s.files.mapM FileRecord.toJson?).map fun files => (s.name, Json.array files)).map .object

end Sections

end ExportAtlas
