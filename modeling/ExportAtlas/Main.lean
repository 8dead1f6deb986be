import ExportAtlas.Ignore.Excludes
import ExportAtlas.Run
/-!
# The program

Gathers what a run looks at into a disk: the tree of the project, with the
bytes of the files that settings and rules come from, and then those of its
source files. The run itself is a function of that disk. What it leaves
behind is printed, and written where a file is asked for.
-/

namespace ExportAtlas

namespace Program

/-- The place of an absolute path without links. -/
def placeOf (path : String) : Location :=
  (Path.ofString path).components.filterMap fun
    | .name bytes => some bytes
    | _ => none

/-- The problem that the system reports. -/
def problemOf : IO.Error → FileProblem
  | .permissionDenied _ number text => .system text number.toNat
  | .hardwareFault number text => .system text number.toNat
  | .otherError number text => .system text number.toNat
  | _ => .system "Input/output error" 5

/-- A file with its bytes, or with the reason why it cannot be read. -/
def fileOf (path : String) : IO Entry := do
  try
    return .file (.ok (← IO.FS.readBinFile path).toList)
  catch e => return .file (.error (problemOf e))

/-- The entry of a name that leads nowhere. -/
def deadEnd (name : String) : Entry := .link (Path.ofString name)

/-- The entries of a folder; none if it cannot be listed. -/
def listing (e : IO.FS.DirEntry) : IO (List IO.FS.DirEntry) := do
  try
    return (← e.path.readDir).toList
  catch _ => return []

/-- An entry of a folder and all below it. Of the files only those with a name
that `reads` wants come with their bytes, and a link goes straight to where it
ends. -/
partial def load (reads : String → Bool) (e : IO.FS.DirEntry) : IO Entry := do
  try
    match (← e.path.symlinkMetadata).type with
    | .dir =>
      let children ← (← listing e).mapM fun child => do
        return (Text.Utf8.ofString child.fileName, ← load reads child)
      return .folder children
    | .file =>
      if reads e.fileName then fileOf e.path.toString else return .file (.ok [])
    | .symlink => return .link (Path.ofString (← IO.FS.realPath e.path).toString)
    | .other => return .device
  catch _ => return deadEnd e.fileName

/-- A disk with a folder at a place. -/
def withFolder (d : Disk) (place : Location) : Disk :=
  if d.isFolderAt place then d else d.put place (.folder [])

/-- A disk with the last name of a path, seen from the working folder. -/
def noteName (d : Disk) (parent name : String) : IO Disk := do
  let folder ← IO.FS.realPath (if parent = "" then "." else parent)
  let e : IO.FS.DirEntry := ⟨folder, name⟩
  let place := placeOf e.path.toString
  match (← e.path.symlinkMetadata).type with
  | .dir => return withFolder d place
  | .file => return d.put place (← fileOf e.path.toString)
  | .other => return d.put place .device
  | .symlink =>
    let target ← IO.FS.realPath e.path
    let d := d.put place (.link (Path.ofString target.toString))
    let place := placeOf target.toString
    match (← target.metadata).type with
    | .dir => return withFolder d place
    | .file => return d.put place (← fileOf target.toString)
    | _ => return d.put place .device

/-- A disk with every name on the way along a path, as far as the way goes. -/
def note (d : Disk) (path : Path) : IO Disk := do
  let pieces := Text.splitOn '/' path.display.toList
  let mut d := d
  let mut way := ""
  for piece in pieces.map String.ofList do
    try
      if piece = "" ∨ piece = "." ∨ piece = ".." then
        let here ← IO.FS.realPath (if way ++ piece = "" then "/" else way ++ piece)
        d := withFolder d (placeOf here.toString)
      else
        d ← noteName d way piece
    catch _ => return d
    way := way ++ piece ++ "/"
  return d

/-- A disk with the rules of a folder above the project. -/
def noteRules (d : Disk) (place : Location) : IO Disk := do
  let mut d := d
  for file in [".ignore", ".gitignore", ".git/info/exclude"] do
    d ← note d ((Path.ofNames place).join (Path.ofString file))
  return d

/-- A disk with the rules to which the `.git` file of a place leads. -/
def noteCommon (d : Disk) (folder place : Location) : IO Disk := do
  match FolderRules.gitTree? d place with
  | none => return d
  | some tree =>
    let d ← note d (FolderRules.commonFile tree)
    match FolderRules.commonFolder? d folder place with
    | some common => note d (FolderRules.personalFile common)
    | none => return d

mutual

/-- The places of the folders at an entry and below it. -/
def folders (place : Location) : Entry → List Location
  | .folder children => place :: childFolders place children
  | .file _ => []
  | .link _ => []
  | .device => []

/-- The places of the folders among the children of a folder and below them. -/
def childFolders (place : Location) : List (FileName × Entry) → List Location
  | [] => []
  | (name, e) :: rest => folders (place ++ [name]) e ++ childFolders place rest

end

mutual

/-- The absolute targets of the links at an entry and below it. -/
def targets : Entry → List Path
  | .file _ => []
  | .folder children => childTargets children
  | .link target => if target.isAbsolute then [target] else []
  | .device => []

/-- The absolute targets of the links among the children of a folder and below
them. -/
def childTargets : List (FileName × Entry) → List Path
  | [] => []
  | (_, e) :: rest => targets e ++ childTargets rest

end

/-- A disk with what the links of a tree lead to, where that lies outside. -/
def noteTargets (d : Disk) (tree : Entry) : IO Disk := do
  let mut d := d
  for target in targets tree do
    if (d.lookup? [] target).isNone then
      let place := placeOf target.display
      let name := (place.getLast?.map Text.Utf8.toStringLossy).getD ""
      d := d.put place (← load Run.controlNames.contains
        ⟨(Path.ofNames place.dropLast).display, name⟩)
  return d

/-- The disk that a run with understood arguments looks at, less its source
files. -/
def gather (around : Surroundings) (c : CommandLine) : IO Disk := do
  let mut d ← note (withFolder around.disk around.folder) c.path
  if let .ok root := Project.findRoot d around.folder c.path then
    let above := (List.range root.length).map root.take
    for place in above do
      d ← noteRules d place
    let name := (root.getLast?.map Text.Utf8.toStringLossy).getD ""
    let tree ← load Run.controlNames.contains
      ⟨(Path.ofNames root.dropLast).display, name⟩
    d ← noteTargets (d.put root tree) tree
    for place in above ++ folders root tree do
      d ← noteCommon d around.folder place
  for path in c.config.toList ++ c.output.toList ++ around.excludes.toList do
    d ← note d path
  if let some folder := around.userFolder then
    d ← note d (folder.join Settings.userFile)
  return d

/-- A disk with the bytes of files. -/
def withSources (d : Disk) (places : List Location) : IO Disk := do
  let mut d := d
  for place in places do
    d := d.put place (← fileOf (Path.ofNames place).display)
  return d

/-- The folder of the user's settings. -/
def userFolder : IO (Option Path) := do
  match (← IO.getEnv "XDG_CONFIG_HOME").map Path.ofString with
  | some path => if path.isAbsolute then return some path
  | none => pure ()
  return (← IO.getEnv "HOME").map fun home => (Path.ofString home).join (Path.ofString ".config")

/-- The bytes of files, less those that cannot be read. -/
def readable (paths : List String) : IO (List (List UInt8)) := do
  let mut found := []
  for path in paths do
    if let .file (.ok bytes) ← fileOf path then
      found := found ++ [bytes]
  return found

/-- The file with the rules that the user keeps for all projects. -/
def excludes : IO (Option Path) := do
  let home ← IO.getEnv "HOME"
  let named := (← IO.getEnv "XDG_CONFIG_HOME").filter (· ≠ "")
  let folder := named.or (home.map (· ++ "/.config"))
  let settings ← readable
    ((home.map (· ++ "/.gitconfig")).toList ++ (folder.map (· ++ "/git/config")).toList)
  let usual := folder.map fun path => Path.ofString (path ++ "/git/ignore")
  return UserRules.path? home settings usual

/-- What is said about settings that are not right. -/
def explain (_ : String) : String := "this is no TOML table, or a value in it does not fit"

/-- A run with its arguments as they come, on the disk as it is. -/
def perform (args : List String) : IO UInt32 := do
  let config ← IO.getEnv "EXPORT_MAP_CONFIG"
  let folder := placeOf (← IO.FS.realPath (← IO.currentDir)).toString
  let mut around : Surroundings :=
    ⟨.empty, folder, config, ← userFolder, ← excludes, explain⟩
  let request := CommandLine.parse config args
  if let .ok c := request then
    let disk ← gather around c
    around := { around with disk }
    around := { around with disk := ← withSources disk (Run.sources around c) }
  let outcome := run around args
  if let .ok c := request then
    if let (some path, 0) := (c.output, outcome.exitCode) then
      if let .ok bytes := outcome.disk.read folder path then
        IO.FS.writeBinFile path.display ⟨bytes.toArray⟩
  IO.print outcome.output
  for line in outcome.messages do
    IO.eprintln line
  return outcome.exitCode.toUInt32

end Program

end ExportAtlas

/-- The program. -/
def main (args : List String) : IO UInt32 := ExportAtlas.Program.perform args
