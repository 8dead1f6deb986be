import ExportAtlas.Failure
import ExportAtlas.Json.Printer
import ExportAtlas.Report.Digest
import ExportAtlas.Report.FolderTree
import ExportAtlas.Report.Listing
import ExportAtlas.Report.Markdown
import ExportAtlas.Report.Outline
import ExportAtlas.Report.Toon
/-!
# Reports

The seven forms in which a project is reported. Five are for reading and
always succeed; the two structured ones fail where a path is not UTF-8.
-/

namespace ExportAtlas

/-- The form of a report. -/
inductive Format where
  /-- A compact digest. -/
  | ai
  /-- An annotated outline with icons. -/
  | human
  /-- Every section, file and symbol. -/
  | raw
  /-- Plain-text blocks by category. -/
  | markdown
  /-- A folder tree with the exports of each file. -/
  | tree
  /-- Structured JSON. -/
  | json
  /-- Token-Oriented Object Notation. -/
  | toon
  deriving DecidableEq, Repr, Inhabited

namespace Format

/-- Every form. -/
def all : List Format := [ai, human, raw, markdown, tree, json, toon]

/-- The name of a form. -/
def name : Format → String
  | ai => "ai"
  | human => "human"
  | raw => "raw"
  | markdown => "markdown"
  | tree => "tree"
  | json => "json"
  | toon => "toon"

/-- Further names by which a form may be asked for. -/
def alternativeNames : List (String × Format) := [("verbose", raw), ("md", markdown)]

/-- The form that is asked for by a name. -/
def ofName? (s : String) : Option Format :=
  (all.find? fun f => f.name == s).or (alternativeNames.lookup s)

end Format

namespace Report

/-- A project as a JSON value; a path that is not UTF-8 cannot be written. -/
def toJson? (a : Atlas) : Option Json :=
  a.sections.toJson?.map fun sections =>
    .object [("projectType", .string a.kind.id), ("routes", .strings a.routeLines),
      ("sections", sections)]

/-- The JSON report. -/
def json (a : Atlas) : Except Failure String :=
  match toJson? a with
  | some value => .ok (value.print ++ "\n")
  | none => .error .pathNotText

/-- The TOON report. -/
def toon (a : Atlas) : Except Failure String :=
  match Toon.lines? a with
  | some lines => .ok (unlines lines)
  | none => .error .pathNotText

/-- The report of a project in a form; the root is the folder that the tree is
drawn from. -/
def render (a : Atlas) (format : Format) (root : Path) : Except Failure String :=
  match format with
  | .ai => .ok (Digest.render a)
  | .human => .ok (Outline.render a)
  | .raw => .ok (Listing.render a)
  | .markdown => .ok (Markdown.render a)
  | .tree => .ok (FolderTree.render root a)
  | .json => json a
  | .toon => toon a

end Report

end ExportAtlas
