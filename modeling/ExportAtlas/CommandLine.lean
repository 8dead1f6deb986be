import ExportAtlas.Report
import ExportAtlas.Settings
/-!
# The command line

One folder to scan, and options in any order around it. An option that takes
a value is read in two steps: its value is checked once the argument after it
is known to be one that can stand there. So of two faults the one in the form
of the arguments is reported, even behind a bad value.
-/

namespace ExportAtlas

/-- What a run is asked to do. -/
structure CommandLine where
  path : Path
  format : Format
  verbose : Bool
  overrides : Overrides
  config : Option Path
  output : Option Path
  deriving DecidableEq, Repr

namespace CommandLine

/-- What is wrong with the arguments. -/
inductive UsageProblem where
  /-- A value is missing or none of those allowed. -/
  | invalidValue
  /-- A value is not the number that is wanted. -/
  | invalidNumber
  | unknownArgument
  /-- An option that counts once is given twice. -/
  | givenTwice
  /-- A switch comes with a value. -/
  | valueForSwitch
  deriving DecidableEq, Repr

/-- Why the arguments do not ask for a scan. -/
inductive Stop where
  | help
  | version
  | usage (problem : UsageProblem)
  deriving DecidableEq, Repr

/-! ## The options -/

/-- What an argument with a value is given for. -/
inductive Slot where
  | path
  | format
  | extension
  | ignore
  | maxDepth
  | config
  | output
  deriving DecidableEq, Repr

/-- What an argument without a value is given for. -/
inductive Switch where
  | verbose
  | noGitignore
  | help
  | version
  deriving DecidableEq, Repr

/-- An option by what it takes. -/
inductive Choice where
  | slot (slot : Slot)
  | switch (switch : Switch)
  deriving DecidableEq, Repr

/-- The options by their words. -/
def longOptions : List (String × Choice) :=
  [("format", .slot .format), ("verbose", .switch .verbose), ("ext", .slot .extension),
    ("ignore", .slot .ignore), ("max-depth", .slot .maxDepth),
    ("no-gitignore", .switch .noGitignore), ("config", .slot .config),
    ("output", .slot .output), ("help", .switch .help), ("version", .switch .version)]

/-- The options by their letters. -/
def shortOptions : List (Char × Choice) :=
  [('f', .slot .format), ('v', .switch .verbose), ('o', .slot .output), ('h', .switch .help),
    ('V', .switch .version)]

/-! ## Values -/

/-- What has been given so far. -/
structure Given where
  path : Option Path
  format : Option Format
  verbose : Bool
  extensions : List String
  ignore : List String
  maxDepth : Option Nat
  noGitignore : Bool
  config : Option Path
  output : Option Path
  deriving DecidableEq, Repr

/-- Nothing. -/
def Given.nothing : Given := ⟨none, none, false, [], [], none, false, none, none⟩

/-- A number of 64 bits in decimal digits, with a plus in front or without. -/
def number? (s : String) : Option Nat :=
  let digits :=
    match s.toList with
    | '+' :: digits => digits
    | digits => digits
  if digits ≠ [] ∧ digits.all Char.isDigit then
    let n := digits.foldl (fun n c => n * 10 + (c.toNat - '0'.toNat)) 0
    if n < Nat.pow 2 64 then some n else none
  else none

/-- A value that fills what was empty. -/
def fill {α : Type} (old new : Option α) (problem : UsageProblem) :
    Except UsageProblem (Option α) :=
  match old, new with
  | some _, _ => .error .givenTwice
  | none, none => .error problem
  | none, some a => .ok (some a)

/-- A path that is not empty. -/
def path? (s : String) : Option Path := if s = "" then none else some (Path.ofString s)

/-- A value added to what has been given. -/
def Given.add (g : Given) (slot : Slot) (value : String) : Except UsageProblem Given :=
  match slot with
  | .path => return { g with path := ← fill g.path (path? value) .invalidValue }
  | .format => return { g with format := ← fill g.format (Format.ofName? value) .invalidValue }
  | .extension => .ok { g with extensions := g.extensions ++ [value] }
  | .ignore => .ok { g with ignore := g.ignore ++ [value] }
  | .maxDepth => return { g with maxDepth := ← fill g.maxDepth (number? value) .invalidNumber }
  | .config => return { g with config := ← fill g.config (path? value) .invalidValue }
  | .output => return { g with output := ← fill g.output (path? value) .invalidValue }

/-- A switch turned on. -/
def Given.turnOn (g : Given) (switch : Switch) : Except Stop Given :=
  match switch with
  | .verbose =>
    if g.verbose then .error (.usage .givenTwice) else .ok { g with verbose := true }
  | .noGitignore =>
    if g.noGitignore then .error (.usage .givenTwice) else .ok { g with noGitignore := true }
  | .help => .error .help
  | .version => .error .version

/-! ## Arguments -/

/-- A slot that has been named, with its value if that has come. -/
structure Waiting where
  slot : Slot
  value : Option String
  deriving DecidableEq, Repr

/-- The arguments read so far. -/
structure Progress where
  given : Given
  /-- The last value named, not yet checked. -/
  waiting : Option Waiting
  /-- A folder has come. -/
  hasPath : Bool
  /-- No more options follow. -/
  onlyPaths : Bool
  deriving DecidableEq, Repr

namespace Progress

/-- No argument read yet. -/
def start : Progress := ⟨.nothing, none, false, false⟩

/-- What has been given, with the value that waits. -/
def settle (p : Progress) : Except Stop Given :=
  match p.waiting with
  | none => .ok p.given
  | some ⟨_, none⟩ => .error (.usage .invalidValue)
  | some ⟨slot, some value⟩ => (p.given.add slot value).mapError .usage

/-- A slot is named, and its value is to follow. -/
def await (p : Progress) (slot : Slot) (value : Option String) : Except Stop Progress :=
  return { p with given := ← p.settle, waiting := some ⟨slot, value⟩ }

/-- A slot is named together with its value. -/
def attach (p : Progress) (slot : Slot) (value : String) : Except Stop Progress := do
  let given ← p.settle
  return { p with given := ← (given.add slot value).mapError .usage, waiting := none }

/-- A switch is named. -/
def flip (p : Progress) (switch : Switch) : Except Stop Progress := do
  let given ← p.settle
  return { p with given := ← given.turnOn switch, waiting := none }

/-- An option by its word, perhaps with a value behind an equals sign. -/
def long (p : Progress) (word : List Char) : Except Stop Progress :=
  let (name, value) := Text.cutOnce '=' (String.ofList word)
  match longOptions.lookup name, value with
  | none, _ => .error (.usage .unknownArgument)
  | some (.slot slot), some value => p.attach slot value
  | some (.slot slot), none => p.await slot none
  | some (.switch _), some _ => .error (.usage .valueForSwitch)
  | some (.switch switch), none => p.flip switch

/-- Options by their letters. The first one that takes a value takes the rest
of the letters, if there are any, less an equals sign in front. -/
def letters (p : Progress) : List Char → Except Stop Progress
  | [] => .ok p
  | c :: rest =>
    match shortOptions.lookup c with
    | none => .error (.usage .unknownArgument)
    | some (.switch switch) => do letters (← p.flip switch) rest
    | some (.slot slot) =>
      match rest with
      | [] => p.await slot none
      | '=' :: value => p.attach slot (String.ofList value)
      | value => p.attach slot (String.ofList value)

/-- An argument that is no option: the value that is awaited, or the folder. -/
def plain (p : Progress) (arg : String) : Except Stop Progress :=
  match p.waiting, p.onlyPaths with
  | some ⟨slot, none⟩, false => .ok { p with waiting := some ⟨slot, some arg⟩ }
  | _, _ =>
    if p.hasPath then .error (.usage .unknownArgument)
    else do
      let p ← p.await .path (some arg)
      return { p with hasPath := true }

/-- One more argument. -/
def argument (p : Progress) (arg : String) : Except Stop Progress :=
  if p.onlyPaths then p.plain arg
  else
    match arg.toList with
    | ['-'] => p.plain arg
    | ['-', '-'] => .ok { p with onlyPaths := true }
    | '-' :: '-' :: word => p.long word
    | '-' :: letters => p.letters letters
    | _ => p.plain arg

end Progress

/-- The format of a report that is not asked for by name. -/
def defaultFormat : Format := .ai

/-- The folder that is scanned where none is named. -/
def defaultPath : Path := Path.ofString "."

/-- What arguments ask for. The environment may name a settings file, which
counts where the arguments name none. -/
def parse (environmentConfig : Option String) (args : List String) :
    Except Stop CommandLine := do
  let progress ← args.foldlM Progress.argument Progress.start
  let given ← progress.settle
  let given ←
    match given.config, environmentConfig with
    | none, some value => (given.add .config value).mapError .usage
    | _, _ => .ok given
  return {
    path := given.path.getD defaultPath
    format := given.format.getD defaultFormat
    verbose := given.verbose
    overrides := ⟨given.extensions, given.ignore, given.maxDepth, given.noGitignore⟩
    config := given.config
    output := given.output
  }

/-- The filter of the log: with details, or with warnings alone. -/
def logDirective (c : CommandLine) : String :=
  if c.verbose then "export_map=debug" else "export_map=warn"

end CommandLine

end ExportAtlas
