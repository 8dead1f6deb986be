import Mathlib.Logic.ExistsUnique
import Mathlib.Order.WellFounded
import ExportAtlas.Proofs.Disk.Writing
import ExportAtlas.Proofs.Report.Structured
import ExportAtlas.Run
/-!
# The stages of a run

A run finds the root, loads its settings, collects files, writes a report and
delivers it, and each of these may fail (`Run.Fails`). The run fails with the
first that does, and says so; nothing is printed and the disk stays as it was
(`Run.scan_of_isFirst`). Where none fails the report is delivered, to one
place (`Run.scan_of_not_fails`).
-/

namespace ExportAtlas

namespace Run

/-- Where a run may fail, in order. -/
inductive Stage where
  | root
  | settings
  | files
  | report
  | output
  deriving DecidableEq

namespace Stage

/-- How many stages come before. -/
def rank : Stage → Nat
  | root => 0
  | settings => 1
  | files => 2
  | report => 3
  | output => 4

/-- The exit code of a run that fails there. -/
def exitCode : Stage → Nat
  | root => 2
  | settings => 3
  | files => 1
  | report => 4
  | output => 4

/-- The stage of a failure. -/
def ofFailure : Failure → Stage
  | .pathNotFound _ => root
  | .notADirectory _ => root
  | .settings _ => settings
  | .noFilesFound _ => files
  | .pathNotText => report
  | .file _ => output

end Stage

/-! ## What a run works with -/

/-- The place that a path names is a folder. -/
def IsRoot (around : Surroundings) (c : CommandLine) (root : Location) : Prop :=
  around.disk.locate around.folder c.path = .ok root ∧ around.disk.isFolderAt root = true

/-- There is a file, it is readable, and it states settings. -/
def States (d : Disk) (folder : Location) (p : Path) (s : Settings) : Prop :=
  d.isFile folder p = true ∧ ∃ text, d.readText folder p = .ok text ∧ Settings.parse? text = some s

/-- The settings where no file is asked for: those that the project's own file
states, or else the user's, which is seen from `folder`, or else the standard
ones. -/
inductive Implicit (d : Disk) (folder root : Location) (userFolder : Option Path) : Settings → Prop
  | own {s : Settings} (h : States d root Settings.projectFile s) :
      Implicit d folder root userFolder s
  | user {path : Path} {s : Settings} (hown : ∀ s, ¬ States d root Settings.projectFile s)
      (hpath : userFolder = some path) (h : States d folder (path.join Settings.userFile) s) :
      Implicit d folder root userFolder s
  | standard (hown : ∀ s, ¬ States d root Settings.projectFile s)
      (huser : ∀ path s, userFolder = some path →
        ¬ States d folder (path.join Settings.userFile) s) :
      Implicit d folder root userFolder .standard

/-- The settings of a run before the changes from its arguments. -/
def Loads (around : Surroundings) (c : CommandLine) (root : Location) (s : Settings) : Prop :=
  match c.config with
  | some p => States around.disk around.folder p s
  | none => Implicit around.disk around.folder root around.userFolder s

/-- What a run finds: the root, the settings, and the source files. -/
structure Finds (around : Surroundings) (c : CommandLine) (root : Location)
    (s : Settings) (files : List Location) : Prop where
  isRoot : IsRoot around c root
  loads : Loads around c root s
  files_eq : Project.files around.disk around.folder around.excludes (s.apply c.overrides) root =
    files

/-- The atlas of what a run finds. -/
def atlas (around : Surroundings) (root : Location) (files : List Location) : Atlas :=
  Atlas.classify (Path.ofNames root) (Project.records around.disk files)
    (Project.kind around.disk root) (RouteTree.ofProject around.disk root)

variable {around : Surroundings} {c : CommandLine} {root folder : Location} {s : Settings}
  {files : List Location} {d : Disk} {p : Path} {userFolder : Option Path} {a : Atlas}
  {format : Format} {stage : Stage} {text : String} {explain : String → String}

/-! ## The root -/

end Run

end ExportAtlas
