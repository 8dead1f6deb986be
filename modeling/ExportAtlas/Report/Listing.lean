import ExportAtlas.Atlas
import ExportAtlas.Report.Lines
/-!
# The listing

Every section, every file and every symbol.
-/

namespace ExportAtlas

namespace Report

namespace Listing

/-- The lines of a file below its path. -/
def symbolLines (file : FileRecord) : List String :=
  if file.exports.isEmpty then ["  (no exports)"]
  else (labelled file.exports).map fun (label, name) => "  " ++ label ++ ": " ++ name

/-- The lines of a file. -/
def fileLines (file : FileRecord) : List String := file.path.display :: symbolLines file

/-- The lines of a section. -/
def sectionLines (s : Section) : List String :=
  ["", "## " ++ s.name ++ " (" ++ toString s.files.length ++ " files)"] ++
    s.files.flatMap fileLines

/-- The lines of the routes. -/
def routeLines (routes : List String) : List String :=
  if routes.isEmpty then []
  else
    ["", "## Routes (" ++ toString routes.length ++ ")"] ++ routes.map ("  " ++ ·)

/-- The lines of the listing. -/
def lines (a : Atlas) : List String :=
  ["# " ++ a.kind.label ++ " project (" ++ a.kind.id ++ ")"] ++ routeLines a.routeLines ++
    a.sections.entries.flatMap sectionLines

/-- The listing of a project. -/
def render (a : Atlas) : String := unlines (lines a)

end Listing

end Report

end ExportAtlas
