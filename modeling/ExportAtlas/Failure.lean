import ExportAtlas.Path
/-!
# Failures

Why a run ends without a report: the causes, what is said about each, and
the exit code it gives.
-/

namespace ExportAtlas

/-- Why a file could not be read or written. -/
inductive FileProblem where
  | notFound
  | notADirectory
  | isADirectory
  | nameTooLong
  | tooManyLinks
  /-- Anything else that the system reports, such as a file that may not be read. -/
  | system (text : String) (number : Nat)
  /-- The bytes are not UTF-8. -/
  | notText
  deriving DecidableEq, Repr

namespace FileProblem

/-- What is said about a problem; those that the system reports carry its
number. -/
def message : FileProblem → String
  | notFound => "No such file or directory (os error 2)"
  | notADirectory => "Not a directory (os error 20)"
  | isADirectory => "Is a directory (os error 21)"
  | nameTooLong => "File name too long (os error 36)"
  | tooManyLinks => "Too many levels of symbolic links (os error 40)"
  | system text number => text ++ " (os error " ++ toString number ++ ")"
  | notText => "stream did not contain valid UTF-8"

end FileProblem

/-- Why settings could not be loaded. -/
inductive SettingsProblem where
  | missing (path : Path)
  | unreadable (path : Path) (problem : FileProblem)
  /-- The text is not TOML, or its values do not fit; and what is said about that. -/
  | malformed (text : String)
  deriving DecidableEq, Repr

namespace SettingsProblem

/-- What is said about a problem. -/
def message : SettingsProblem → String
  | missing path => "config file not found: " ++ path.display
  | unreadable path problem => "failed to read " ++ path.display ++ ": " ++ problem.message
  | malformed text => "failed to parse config: " ++ text

end SettingsProblem

/-- Why a run ends without a report. -/
inductive Failure where
  | noFilesFound (path : Path)
  | pathNotFound (path : Path)
  | notADirectory (path : Path)
  | settings (problem : SettingsProblem)
  /-- A path that is not UTF-8 in a report that needs it to be. -/
  | pathNotText
  | file (problem : FileProblem)
  deriving DecidableEq, Repr

namespace Failure

/-- What is said about a failure. -/
def message : Failure → String
  | noFilesFound path => "No files found in " ++ path.display
  | pathNotFound path => "Path not found: " ++ path.display
  | notADirectory path => "Not a directory: " ++ path.display
  | settings problem => "Configuration error: " ++ problem.message
  | pathNotText =>
    "Serialization failed: JSON serialization failed: path contains invalid UTF-8 characters"
  | file problem => "IO error: " ++ problem.message

/-- The exit code of a failure: 1 for nothing to report, 2 for a bad target, 3
for bad settings, 4 where the report could not be produced. -/
def exitCode : Failure → Nat
  | noFilesFound _ => 1
  | pathNotFound _ => 2
  | notADirectory _ => 2
  | settings _ => 3
  | pathNotText => 4
  | file _ => 4

end Failure

end ExportAtlas
