import ExportAtlas.Ignore.NamePattern
import ExportAtlas.Path
import ExportAtlas.Text.Case
/-!
# Names that are left out

The ignore entries of the settings leave out files and folders by name, at
every depth. Test files and type declarations are left out always.
-/

namespace ExportAtlas

open Text

/-- What the ignore entries leave out: names as they are, and patterns. -/
structure IgnoreNames where
  names : List String
  patterns : List NamePattern
  deriving DecidableEq, Repr

namespace IgnoreNames

/-- An entry is meant as a pattern. -/
def looksLikePattern (entry : String) : Bool :=
  entry.toList.any fun c => c == '*' || c == '?' || c == '['

/-- The pattern that an entry is, if it is meant as one and valid. -/
def pattern? (entry : String) : Option NamePattern :=
  if looksLikePattern entry then NamePattern.parse? entry else none

/-- What a list of entries leaves out. An entry that is no valid pattern is a
name. -/
def ofEntries (entries : List String) : IgnoreNames where
  names := entries.filter fun entry => (pattern? entry).isNone
  patterns := entries.filterMap pattern?

/-- A name is left out. -/
def ignores (ignored : IgnoreNames) (name : String) : Bool :=
  ignored.names.contains name || ignored.patterns.any (·.accepts name)

end IgnoreNames

namespace Path

/-- The name of the folders that hold tests. -/
def testFolder : Component := .name (Utf8.ofString "__tests__")

/-- The last component in lower case, if it is a name in UTF-8. -/
def lowerFileName? (p : Path) : Option String := (p.fileName?.bind Utf8.toString?).map lower

/-- A path to tests: one inside a folder for tests, or a file with `test` or
`spec` between dots in its name. -/
def isTestFile (p : Path) : Bool :=
  p.components.contains testFolder ||
    match p.lowerFileName? with
    | some name => contains name ".test." || contains name ".spec."
    | none => false

/-- A path to type declarations, which export nothing at run time. -/
def isDeclarationFile (p : Path) : Bool :=
  match p.lowerFileName? with
  | some name => ".d.ts".toList.isSuffixOf name.toList
  | none => false

end Path

end ExportAtlas
