import ExportAtlas.Atlas
import ExportAtlas.Report.Lines
/-!
# TOON

The report in Token-Oriented Object Notation: one line a member, lists with
their lengths, quotes only where a value could be misread.
-/

namespace ExportAtlas

namespace Report

namespace Toon

/-! ## Keys and values -/

/-- A character as a quoted text shows it. -/
def escape (c : Char) : List Char :=
  match c with
  | '\n' => ['\\', 'n']
  | '\r' => ['\\', 'r']
  | '\t' => ['\\', 't']
  | '"' => ['\\', '"']
  | '\\' => ['\\', '\\']
  | c => [c]

/-- A text between quotes. -/
def quote (s : String) : String := "\"" ++ String.ofList (s.toList.flatMap escape) ++ "\""

/-- A key that needs no quotes: a letter or an underscore, then letters,
numbers, underscores and dots. -/
def isPlainKey (key : String) : Bool :=
  match key.toList with
  | [] => false
  | c :: rest =>
    (Text.isAlphabetic c || c == '_') &&
      rest.all fun c => Text.isAlphabetic c || Text.isNumeric c || c == '_' || c == '.'

/-- A key. -/
def key (k : String) : String := if isPlainKey k then k else quote k

/-- The text of a number: perhaps a sign, a digit that is no leading zero, and
then nothing but digits, points, exponent letters and signs. -/
def looksNumeric (s : List Char) : Bool :=
  let digits := if s.head? = some '-' then s.tail else s
  match digits with
  | [] => false
  | c :: rest =>
    c.isDigit && !(c == '0' && (rest.head?.any Char.isDigit)) &&
      rest.all fun c => c.isDigit || ".eE+-".toList.contains c

/-- A character that a value without quotes cannot hold. -/
def isDelimiting (c : Char) : Bool := "[]\x7b\x7d:-, \t\n\r".toList.contains c

/-- A value that could be misread without quotes. -/
def needsQuotes (v : String) : Bool :=
  v.isEmpty || ["null", "true", "false"].contains v || looksNumeric v.toList ||
    v.toList.any isDelimiting

/-- A value. -/
def value (v : String) : String := if needsQuotes v then quote v else v

/-- A list with its length. -/
def list (values : List String) : String :=
  "[" ++ toString values.length ++ "]:" ++
    if values.isEmpty then "" else " " ++ String.intercalate "," (values.map value)

/-! ## The report -/

/-- The members of a file, first to last. -/
def members (path : String) (file : FileRecord) : List String :=
  let e := file.exports
  ["path: " ++ value path, "name: " ++ value file.name, "functions: " ++ list e.functions,
    "constants: " ++ list e.constants, "types: " ++ list e.types,
    "interfaces: " ++ list e.interfaces, "classes: " ++ list e.classes] ++
  (e.defaultExport.map fun name => "defaultExport: " ++ value name).toList

/-- The lines of a file: a dash in front of its first member, the others
below it. -/
def fileLines? (file : FileRecord) : Option (List String) :=
  file.path.toString?.map fun path =>
    match members path file with
    | [] => []
    | first :: rest => ("    - " ++ first) :: rest.map ("      " ++ ·)

/-- The lines of a section. -/
def sectionLines? (s : Section) : Option (List String) :=
  (s.files.mapM fileLines?).map fun files =>
    ("    " ++ key s.name ++ "[" ++ toString s.files.length ++ "]:") :: files.flatten

/-- The lines of the report; a path that is not UTF-8 cannot be written. -/
def lines? (a : Atlas) : Option (List String) :=
  (a.sections.entries.mapM sectionLines?).map fun sections =>
    ["projectType: " ++ a.kind.id, "routes" ++ list a.routeLines, "sections:"] ++
      sections.flatten

end Toon

end Report

end ExportAtlas
