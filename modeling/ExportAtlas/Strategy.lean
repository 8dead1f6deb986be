import ExportAtlas.ProjectKind
import ExportAtlas.Text.Case
/-!
# The section of a file

A file belongs to the section that the folder names of its path select. A
strategy is a table of sections with the folder names that lead to each; the
first row with a matching folder wins, and a file that no row takes falls
back on its top-level folder.
-/

namespace ExportAtlas

/-- How the files of a project are put into sections. -/
inductive Strategy where
  /-- By feature and layer folders, with sub-folders as sections of their
  own. -/
  | nextLike
  /-- By the layers of a server. -/
  | expressLike
  /-- By top-level folder alone. -/
  | vanilla
  deriving DecidableEq, Repr, Inhabited

namespace Strategy

/-- The section of files that lie in no folder, and of files outside the
project. -/
def rootSection : String := "_root"

/-- A section and the folder names that lead to it. -/
structure Row where
  label : String
  folders : List String

/-- The rows of a strategy by feature and layer. -/
def nextRows : List Row :=
  [⟨"Features", ["features", "modules", "domains"]⟩,
    ⟨"Components", ["components"]⟩,
    ⟨"Hooks", ["hooks"]⟩,
    ⟨"Lib", ["lib", "utils", "helpers", "services"]⟩,
    ⟨"API", ["api"]⟩]

/-- The rows of a strategy by server layer. -/
def expressRows : List Row :=
  [⟨"Routes", ["routes", "routers", "api"]⟩,
    ⟨"Controllers", ["controllers", "handlers"]⟩,
    ⟨"Services", ["services"]⟩,
    ⟨"Models", ["models", "entities", "schemas"]⟩,
    ⟨"Middleware", ["middleware", "middlewares"]⟩,
    ⟨"Utils", ["utils", "helpers", "lib"]⟩,
    ⟨"Config", ["config", "configs"]⟩]

/-- The strategy for a kind of project. -/
def ofKind : ProjectKind → Strategy
  | .nextjs => nextLike
  | .express | .nestjs => expressLike
  | .react | .vue | .sveltekit | .node | .vanilla => vanilla

/-- Projects of this strategy have page folders that make routes. -/
def wantsRoutes : Strategy → Bool
  | nextLike => true
  | expressLike | vanilla => false

/-- The first component of a path that has more than one. -/
def topLevelFolder (parts : List String) : String :=
  match parts with
  | folder :: _ :: _ => folder
  | _ => rootSection

/-- The section that a row gives to a path with a folder of the row: the row
itself, or below it the next folder on the way to the file. -/
def sectionUnder (row : Row) (parts : List String) : Option String :=
  (parts.dropLast.findIdx? row.folders.contains).map fun i =>
    match parts.drop (i + 1) with
    | folder :: _ :: _ => row.label ++ "/" ++ folder
    | _ => row.label

/-- The section of a path by feature and layer; folder names are compared
exactly. -/
def nextSection (parts : List String) : String :=
  (nextRows.findSome? fun row => sectionUnder row parts).getD
    ("Other/" ++ topLevelFolder parts)

/-- The section of a path by server layer; every component counts, without
regard to case. -/
def expressSection (parts : List String) : String :=
  let lowered := parts.map Text.lower
  match expressRows.find? fun row => lowered.any row.folders.contains with
  | some row => row.label
  | none => topLevelFolder parts

/-- The section of a path, given as its components under the root. -/
def sectionOf (strategy : Strategy) (parts : List String) : String :=
  match strategy with
  | nextLike => nextSection parts
  | expressLike => expressSection parts
  | vanilla => topLevelFolder parts

end Strategy

end ExportAtlas
