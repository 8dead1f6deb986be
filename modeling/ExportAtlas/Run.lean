import ExportAtlas.CommandLine
import ExportAtlas.Project
import ExportAtlas.Settings.Load
/-!
# A run

What the program does with its arguments on a disk: it reports a project, on
the standard output or into a file, or says why it cannot. The disk is
changed only once the report is there.
-/

namespace ExportAtlas

/-- What a run is given beside its arguments. -/
structure Surroundings where
  disk : Disk
  /-- The folder in which the run takes place. -/
  folder : Location
  /-- The settings file that the environment names. -/
  config : Option String
  /-- The folder of the user's settings. -/
  userFolder : Option Path
  /-- The file with the rules that the user keeps for all projects. -/
  excludes : Option Path
  /-- What the TOML reader says about a text that it cannot take. -/
  explain : String → String

/-- What a run leaves behind. -/
structure Outcome where
  exitCode : Nat
  output : String
  /-- The lines of messages. -/
  messages : List String
  disk : Disk

namespace Run

/-- The program's name and version. -/
def versionText : String := "export-map 0.3.0\n"

/-- How the program is used. -/
def helpText : String :=
  "Map the exported symbols of a JS/TS project into a compact report\n\n" ++
  "Usage: export-map [OPTIONS] [PATH]\n\n" ++
  "Arguments:\n" ++
  "  [PATH]  Project directory to scan [default: .]\n\n" ++
  "Options:\n" ++
  "  -f, --format <FORMAT>   Report format: " ++
    String.intercalate ", " (Format.all.map Format.name) ++ " [default: ai]\n" ++
  "  -v, --verbose           Show debug logging on stderr\n" ++
  "      --ext <EXT>         File extension to include (repeatable)\n" ++
  "      --ignore <PATTERN>  Extra name or glob to skip (repeatable)\n" ++
  "      --max-depth <N>     Maximum directory depth to descend\n" ++
  "      --no-gitignore      Do not honor .gitignore files\n" ++
  "      --config <FILE>     Config file [env: EXPORT_MAP_CONFIG]\n" ++
  "  -o, --output <FILE>     Write the report to a file instead of stdout\n" ++
  "  -h, --help              Print help\n" ++
  "  -V, --version           Print version\n"

/-- What is said about arguments that cannot be used. -/
def usageMessage : CommandLine.UsageProblem → String
  | .invalidValue => "error: a value is missing or not allowed"
  | .invalidNumber => "error: a value is not a number"
  | .unknownArgument => "error: unexpected argument"
  | .givenTwice => "error: an option is given twice"
  | .valueForSwitch => "error: a switch takes no value"

/-- The settings of a run, with the changes from its arguments. -/
def settings (around : Surroundings) (c : CommandLine) (root : Location) :
    Except Failure Settings :=
  match Settings.load around.disk around.explain around.folder c.config root around.userFolder with
  | .ok s => .ok (s.apply c.overrides)
  | .error problem => .error (.settings problem)

/-- The report that a run makes. -/
def report (around : Surroundings) (c : CommandLine) : Except Failure String := do
  let root ← Project.findRoot around.disk around.folder c.path
  let settings ← settings around c root
  let atlas ← Project.atlas around.disk around.folder around.excludes settings root
  Report.render atlas c.format (Path.ofNames root)

/-! ## What a run reads

The names on the disk and the files of a few names are enough to tell which
source files a run reads. -/

/-- The names of the files that are read wherever they lie in the project. -/
def controlNames : List String :=
  [".ignore", ".gitignore", ".git", "commondir", "exclude", ".exportmap.toml", "package.json"]

/-- The source files that a run reads. -/
def sources (around : Surroundings) (c : CommandLine) : List Location :=
  match Project.findRoot around.disk around.folder c.path with
  | .error _ => []
  | .ok root =>
    match settings around c root with
    | .error _ => []
    | .ok settings => Project.files around.disk around.folder around.excludes settings root

/-! ## Results -/

/-- A run that has failed. -/
def failed (around : Surroundings) (f : Failure) : Outcome :=
  ⟨f.exitCode, "", ["Error: " ++ f.message], around.disk⟩

/-- A report put where it is asked for. -/
def deliver (around : Surroundings) (c : CommandLine) (text : String) : Outcome :=
  match c.output with
  | none => ⟨0, text, [], around.disk⟩
  | some path =>
    match around.disk.write around.folder path (Text.Utf8.ofString text) with
    | .error problem => failed around (.file problem)
    | .ok disk =>
      ⟨0, "", ["Wrote " ++ c.format.name ++ " report to " ++ path.display], disk⟩

/-- A run with its arguments understood. -/
def scan (around : Surroundings) (c : CommandLine) : Outcome :=
  match report around c with
  | .ok text => deliver around c text
  | .error f => failed around f

end Run

/-- A run with its arguments as they come. -/
def run (around : Surroundings) (args : List String) : Outcome :=
  match CommandLine.parse around.config args with
  | .ok c => Run.scan around c
  | .error .help => ⟨0, Run.helpText, [], around.disk⟩
  | .error .version => ⟨0, Run.versionText, [], around.disk⟩
  | .error (.usage problem) => ⟨2, "", [Run.usageMessage problem], around.disk⟩

end ExportAtlas
