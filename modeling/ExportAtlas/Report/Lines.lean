import ExportAtlas.FileRecord
import ExportAtlas.Text.Case
import ExportAtlas.Text.Pieces
/-!
# Lines of a report

What the reports share: lines put together into a text, the symbols of a
file in the order in which every report lists them, and the names of feature
domains.
-/

namespace ExportAtlas

namespace Report

/-- Lines that each end in a newline. -/
def unlines (lines : List String) : String := String.join (lines.map (· ++ "\n"))

/-- Lines with newlines between them. -/
def joinLines (lines : List String) : String := String.intercalate "\n" lines

/-- The symbols of a file with their labels, the default export last. -/
def labelled (e : Exports) : List (String × String) :=
  (e.symbols.map fun (kind, name) => (kind.label, name)) ++
    (e.defaultExport.map fun name => ("default", name)).toList

/-- The name of the domain that a section stands for: `Features/Billing` is
`billing`. -/
def domainName (sectionName : String) : String :=
  String.ofList (Text.eraseFirst "features/".toList (Text.lower sectionName).toList)

end Report

end ExportAtlas
