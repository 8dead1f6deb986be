import ExportAtlas.Failure
import ExportAtlas.KeyedList
/-!
# Disks

The files and folders that a run can see, as a value: a tree of named entries
below one root. The entries of a folder stand in the order in which the
folder happens to list them, so nothing may depend on that order.
-/

namespace ExportAtlas

/-- The bytes of a name. -/
abbrev FileName := List UInt8

/-- What a name in a folder stands for. -/
inductive Entry where
  /-- A file, with what reading it gives: its bytes, or why it cannot be read. -/
  | file (content : Except FileProblem (List UInt8))
  | folder (children : List (FileName × Entry))
  /-- Another path to look at instead. -/
  | link (target : Path)
  /-- Neither file nor folder: what is written to it is gone, and there is
  nothing to read. -/
  | device
  deriving Repr, Inhabited

/-- A place on a disk: the names on the way from the root. -/
abbrev Location := List FileName

/-- All files and folders, as what the root holds. -/
structure Disk where
  children : List (FileName × Entry)
  deriving Repr, Inhabited

namespace Entry

/-- The entry at the end of a way down, without following links. -/
def descend? : Entry → Location → Option Entry
  | e, [] => some e
  | .folder children, name :: names => (children.lookup name).bind fun e => e.descend? names
  | _, _ :: _ => none

/-- The children of a folder with an entry set at the end of a way down.
Folders are made where the way has none. -/
def place (entry : Entry) : Location → List (FileName × Entry) → List (FileName × Entry)
  | [], children => children
  | [name], children => KeyedList.put name entry children
  | name :: names, children =>
    let inner :=
      match children.lookup name with
      | some (.folder inner) => inner
      | _ => []
    KeyedList.put name (.folder (place entry names inner)) children

/-- Children in byte order of their names, with one more. -/
def insertSorted (name : FileName) (e : Entry) :
    List (FileName × Entry) → List (FileName × Entry)
  | [] => [(name, e)]
  | (n, f) :: rest =>
    if name ≤ n then (name, e) :: (n, f) :: rest else (n, f) :: insertSorted name e rest

mutual

/-- An entry with the names in every folder below it in byte order. -/
def sorted : Entry → Entry
  | .file content => .file content
  | .folder children => .folder (sortedChildren children)
  | .link target => .link target
  | .device => .device

/-- The children of a folder in byte order, and so everything below them. -/
def sortedChildren : List (FileName × Entry) → List (FileName × Entry)
  | [] => []
  | (name, e) :: rest => insertSorted name e.sorted (sortedChildren rest)

end

end Entry

namespace Disk

/-- The disk with nothing on it. -/
def empty : Disk := ⟨[]⟩

/-- The entry at a place, without following links. -/
def entry? (d : Disk) (place : Location) : Option Entry := (Entry.folder d.children).descend? place

/-- The disk with an entry set at a place. -/
def put (d : Disk) (place : Location) (entry : Entry) : Disk := ⟨entry.place place d.children⟩

end Disk

end ExportAtlas
