import ExportAtlas.Ignore.Names
import ExportAtlas.Ignore.Rules
import ExportAtlas.Settings
/-!
# The source files of a project

The files below a folder that the settings ask for. Hidden entries, entries
that an ignore rule or an ignore entry names, and all below them are left
out; links are not followed; and of the files, those with another extension,
tests and type declarations are left out. The files come in the order of
their paths, name by name.
-/

namespace ExportAtlas

open Text

/-- What a search for source files goes by. -/
structure Search where
  disk : Disk
  /-- Where the paths in files are seen from. -/
  folder : Location
  settings : Settings
  /-- The ignore entries of the settings, read. -/
  ignored : IgnoreNames
  /-- The rules that the user keeps for all projects. -/
  excluded : List IgnoreRule

namespace Search

/-- A search of a disk with settings, and with the user's rules for all projects
in the file `excludes`. -/
def of (disk : Disk) (folder : Location) (excludes : Option Path) (settings : Settings) :
    Search where
  disk := disk
  folder := folder
  settings := settings
  ignored := .ofEntries settings.ignore
  excluded := UserRules.ofFile disk folder settings.respectGitignore excludes

/-- The most levels that a walk counts: the greatest number in a machine word. -/
def levelLimit : Nat := UInt64.size - 1

/-- How many levels below the root a search goes. A file in a folder at the
greatest depth lies one level further down. -/
def levels (s : Search) : Nat := min (s.settings.maxDepth + 1) levelLimit

/-- The rules that a place sets. -/
def rulesOf (s : Search) (place : Location) : FolderRules :=
  .ofPlace s.disk s.folder s.settings.respectGitignore place

/-- The rules of the folders on the way to a place, the deepest first; not
those of the place itself. -/
def rulesAbove (s : Search) (place : Location) : List FolderRules :=
  (List.range place.length).reverse.map fun n => s.rulesOf (place.take n)

/-- What the user's rules for all projects say of a place. -/
def exclude? (s : Search) (place : Location) (isFolder : Bool) : Option Verdict :=
  IgnoreRule.decide? s.excluded (UserRules.pathSeen s.folder place) isFolder

/-- What all ignore rules say of a place. The user's rules for all projects are
asked last. -/
def decide? (s : Search) (above : List FolderRules) (place : Location) (isFolder : Bool) :
    Option Verdict :=
  (FolderRules.decide? above place isFolder).or (s.exclude? place isFolder)

/-- A name begins with a dot. -/
def isHidden (name : FileName) : Bool := name.head? == some Path.dot

/-- An entry of a folder is looked at. A rule that keeps an entry shows it
even if it is hidden. -/
def admits (s : Search) (above : List FolderRules) (place : Location) (name : FileName)
    (isFolder : Bool) : Bool :=
  (match s.decide? above place isFolder with
    | some .ignored => false
    | some .kept => true
    | none => !isHidden name) &&
  !s.ignored.ignores (Utf8.toStringLossy name)

/-- A name has an extension that the settings allow. -/
def allowsName (s : Search) (name : FileName) : Bool :=
  match (Path.extensionOf? name).bind Utf8.toString? with
  | some ext => s.settings.allowsExtension ext
  | none => false

/-- A file is a source file. -/
def wants (s : Search) (place : Location) (name : FileName) : Bool :=
  let path := Path.ofNames place
  s.allowsName name && !path.isTestFile && !path.isDeclarationFile

mutual

/-- The source files that an entry is or holds, `levels` deep. -/
def filesOf (s : Search) (above : List FolderRules) (place : Location) (name : FileName) :
    (levels : Nat) → Entry → List Location
  | _, .file _ => if s.wants place name then [place] else []
  | levels, .folder children => s.filesAmong (s.rulesOf place :: above) place levels children
  | _, .link _ => []
  | _, .device => []

/-- The source files among the children of a folder, `levels` deep. -/
def filesAmong (s : Search) (above : List FolderRules) (folder : Location) :
    (levels : Nat) → List (FileName × Entry) → List Location
  | _, [] => []
  | 0, _ => []
  | levels + 1, (name, e) :: rest =>
    let place := folder ++ [name]
    let isFolder :=
      match e with
      | .folder _ => true
      | _ => false
    (if s.admits above place name isFolder then s.filesOf above place name levels e else []) ++
      s.filesAmong above folder (levels + 1) rest

end

/-- The source files below a folder. The folder itself may have any name, and
so may the folders that it lies in. -/
def files (s : Search) (root : Location) : List Location :=
  match s.disk.entry? root with
  | some (.folder children) =>
    s.filesAmong (s.rulesOf root :: s.rulesAbove root) root s.levels
      (Entry.sortedChildren children)
  | _ => []

end Search

end ExportAtlas
