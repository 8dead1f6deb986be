import ExportAtlas.Atlas
import ExportAtlas.RouteTree.PageFolders
import ExportAtlas.Source.Extract
import ExportAtlas.SourceFiles
/-!
# Projects on a disk

From a folder on a disk to the atlas of the project in it: the root is found,
its source files are read, its kind is told from its manifest, and its files
are put into sections.
-/

namespace ExportAtlas

namespace Project

/-- The place of a project's root, given as it is seen from a folder. -/
def findRoot (d : Disk) (folder : Location) (path : Path) : Except Failure Location :=
  match d.locate folder path with
  | .error _ => .error (.pathNotFound path)
  | .ok place =>
    match d.entry? place with
    | some (.folder _) => .ok place
    | some _ => .error (.notADirectory path)
    | none => .error (.pathNotFound path)

/-! ## Files -/

/-- The text of a source file: UTF-8 without a null character. -/
def sourceText? (bytes : List UInt8) : Option String :=
  (Text.Utf8.toString? bytes).filter fun s => !s.toList.contains '\x00'

/-- The record of the file at a place, if its bytes are the text of a source
file. -/
def record? (d : Disk) (place : Location) : Option FileRecord :=
  match d.entry? place with
  | some (.file (.ok bytes)) =>
    (sourceText? bytes).map fun s => FileRecord.of (Path.ofNames place) (Exports.ofSource s)
  | _ => none

/-- The records of source files; those that cannot be read are passed over. -/
def records (d : Disk) (files : List Location) : List FileRecord := files.filterMap (record? d)

/-! ## Kind -/

/-- The name of the manifest of a project. -/
def manifestFile : Path := Path.ofString "package.json"

/-- The files of which each marks a Next.js project. -/
def nextConfigFiles : List String :=
  ["next.config.js", "next.config.mjs", "next.config.cjs", "next.config.ts"]

/-- The manifest of a project. -/
def manifest? (d : Disk) (root : Location) : Option Manifest :=
  (d.readText root manifestFile).toOption.bind Manifest.parse?

/-- The kind of a project. -/
def kind (d : Disk) (root : Location) : ProjectKind :=
  ProjectKind.ofManifest (manifest? d root)
    (nextConfigFiles.any fun name => d.isFile root (Path.ofString name))

/-! ## Atlas -/

/-- The source files of a project. Paths in the files that go with it are seen
from `folder`, and `excludes` is the file with the user's rules for all projects. -/
def files (d : Disk) (folder : Location) (excludes : Option Path) (settings : Settings)
    (root : Location) : List Location :=
  (Search.of d folder excludes settings).files root

/-- The atlas of a project, which has to have source files. -/
def atlas (d : Disk) (folder : Location) (excludes : Option Path) (settings : Settings)
    (root : Location) : Except Failure Atlas :=
  let path := Path.ofNames root
  match files d folder excludes settings root with
  | [] => .error (.noFilesFound path)
  | files =>
    .ok (Atlas.classify path (records d files) (kind d root) (RouteTree.ofProject d root))

end Project

end ExportAtlas
