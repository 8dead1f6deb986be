import ExportAtlas.Atlas
import ExportAtlas.Report.Lines
/-!
# The report by category

One block of plain text per category, which is the part of a section's name
before the first slash. The sections of a category come one after the other,
each under the rest of its name; files without exports are left out.
-/

namespace ExportAtlas

namespace Report

namespace Markdown

/-- The category of a section. -/
def category (s : Section) : String := (Text.cutOnce '/' s.name).1

/-- Categories with one more section: with its like if there is one, else in
a category of its own at the end. -/
def addSection (s : Section) : List (String × List Section) → List (String × List Section)
  | [] => [(category s, [s])]
  | (name, sections) :: rest =>
    if name = category s then (name, sections ++ [s]) :: rest
    else (name, sections) :: addSection s rest

/-- Sections gathered by category, categories in order of first appearance. -/
def categories (sections : List Section) : List (String × List Section) :=
  sections.foldl (fun cs s => addSection s cs) []

/-- The title of a category: in capitals, without leading underscores. -/
def title (category : String) : String :=
  match category.toList.dropWhile (· == '_') with
  | [] => "ROOT"
  | name => Text.upper (String.ofList name)

/-- The heading of a block. -/
def heading (title : String) : List String := ["=== " ++ title ++ " ===", ""]

/-- The lines of a file; none if it exports nothing. -/
def fileLines (file : FileRecord) : List String :=
  if file.exports.isEmpty then []
  else
    file.name :: (labelled file.exports).map fun (label, name) => "• " ++ label ++ ": " ++ name

/-- The lines of a section. -/
def sectionLines (s : Section) : List String :=
  ((Text.cutOnce '/' s.name).2.map (· ++ "/")).toList ++ s.files.flatMap fileLines ++ [""]

/-- The lines of a category. -/
def categoryLines (c : String × List Section) : List String :=
  heading (title c.1) ++ c.2.flatMap sectionLines

/-- The lines of the routes. -/
def routeLines (routes : List String) : List String :=
  if routes.isEmpty then [] else heading "ROUTES" ++ routes ++ [""]

/-- The lines of the report. -/
def lines (a : Atlas) : List String :=
  routeLines a.routeLines ++ (categories a.sections.entries).flatMap categoryLines ++
    ["=== DONE ==="]

/-- The report of a project by category. -/
def render (a : Atlas) : String := unlines (lines a)

end Markdown

end Report

end ExportAtlas
