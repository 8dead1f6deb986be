import ExportAtlas.Atlas
import ExportAtlas.Report.Lines
/-!
# The folder tree

The folders and files of a project drawn as a tree, each file with what it
exports. In every folder the sub-folders come first, then the files, each
in the order of their names. A file outside the root is drawn at the top by
its bare name.
-/

namespace ExportAtlas

namespace Report

/-- A folder of the drawing: its sub-folders and its files, each in the order
of their names. -/
inductive Folder where
  | mk (folders : List (String × Folder)) (files : List (String × FileRecord))
  deriving Inhabited

namespace Folder

/-- The folder with nothing in it. -/
def empty : Folder := mk [] []

/-- A list in the order of its keys with the entry of one key changed, or
made if there is none. -/
def alter {α : Type} (key : String) (change : Option α → α) :
    List (String × α) → List (String × α)
  | [] => [(key, change none)]
  | (k, v) :: rest =>
    if k = key then (k, change (some v)) :: rest
    else if key < k then (key, change none) :: (k, v) :: rest
    else (k, v) :: alter key change rest

/-- The folder with a file at a position below it; of two files at one
position the later one stays. -/
def insert (file : FileRecord) : (position : List String) → Folder → Folder
  | [], folder => folder
  | [name], mk folders files => mk folders (alter name (fun _ => file) files)
  | folder :: position, mk folders files =>
    mk (alter folder (fun f => insert file position (f.getD empty)) folders) files

end Folder

namespace FolderTree

/-- Where a file is drawn. -/
def position (root : Path) (file : FileRecord) : List String :=
  (file.relativeParts? root).getD [file.name]

/-- The drawing's folders, with every file in its place. -/
def arrange (root : Path) (files : List FileRecord) : Folder :=
  files.foldl (fun folder file => folder.insert file (position root file)) Folder.empty

/-- What follows the name of a file: its symbols, or nothing. -/
def symbols (file : FileRecord) : String :=
  let names := (file.exports.symbols.map Prod.snd) ++
    (file.exports.defaultExport.map ("default " ++ ·)).toList
  if names.isEmpty then "" else " → " ++ String.intercalate ", " names

/-- The connector in front of an entry. -/
def connector (isLast : Bool) : String := if isLast then "└─ " else "├─ "

/-- What stands in front of everything below an entry. -/
def extension (isLast : Bool) : String := if isLast then "   " else "│  "

/-- The lines of the files of a folder. -/
def fileLines (front : String) : List (String × FileRecord) → List String
  | [] => []
  | (name, file) :: rest =>
    (front ++ connector rest.isEmpty ++ name ++ symbols file) :: fileLines front rest

mutual

/-- The lines of a folder's entries behind `front`. -/
def entryLines (front : String) : Folder → List String
  | .mk folders files => folderLines front files.isEmpty folders ++ fileLines front files

/-- The lines of sub-folders; the last of them is the last entry of its
folder where no files follow. -/
def folderLines (front : String) (noFiles : Bool) : List (String × Folder) → List String
  | [] => []
  | (name, folder) :: rest =>
    let isLast := rest.isEmpty && noFiles
    (front ++ connector isLast ++ name ++ "/") ::
      entryLines (front ++ extension isLast) folder ++ folderLines front noFiles rest

end

/-- The name at the top of the drawing. -/
def rootName (root : Path) : String :=
  (root.fileName?.map Text.Utf8.toStringLossy).getD root.display

/-- The lines of the drawing. -/
def lines (root : Path) (a : Atlas) : List String :=
  (rootName root ++ "/") :: entryLines "" (arrange root a.sections.files)

/-- The folder tree of a project. -/
def render (root : Path) (a : Atlas) : String := unlines (lines root a)

end FolderTree

end Report

end ExportAtlas
