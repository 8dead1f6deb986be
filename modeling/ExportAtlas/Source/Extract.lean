import ExportAtlas.Exports
import ExportAtlas.Source.Comment
import ExportAtlas.Source.EsModule
import ExportAtlas.Source.CommonJs
/-!
# The exports of a source text

Comments are masked, the declarations of both module systems are put into
the order of the text, and a collector files them by kind. A name is filed
once per kind, and as a function or as a constant but never as both: the
declaration that comes first decides.
-/

namespace ExportAtlas

namespace Source

/-! ## Collecting -/

/-- The exports collected so far, with the name that a CommonJS module
exports as a whole. -/
structure Collected where
  exports : Exports
  wholeModule : Option String

namespace Collected

/-- Nothing collected. -/
def empty : Collected := ⟨Exports.empty, none⟩

/-- A list with a name at its end, unless the name is in it. -/
def insertNew (names : List String) (name : String) : List String :=
  if names.contains name then names else names ++ [name]

/-- One more declaration filed. -/
def add (c : Collected) (d : Declaration) : Collected :=
  let e := c.exports
  match d.role with
  | .function =>
    if e.constants.contains d.name then c
    else { c with exports := { e with functions := insertNew e.functions d.name } }
  | .constant =>
    if e.functions.contains d.name then c
    else { c with exports := { e with constants := insertNew e.constants d.name } }
  | .type => { c with exports := { e with types := insertNew e.types d.name } }
  | .interface => { c with exports := { e with interfaces := insertNew e.interfaces d.name } }
  | .classDef => { c with exports := { e with classes := insertNew e.classes d.name } }
  | .defaultExport =>
    { c with exports := { e with defaultExport := e.defaultExport.or (some d.name) } }
  | .wholeModule => { c with wholeModule := c.wholeModule.or (some d.name) }

/-- The finished exports: where no default export was declared, the module as
a whole is it. -/
def finish (c : Collected) : Exports :=
  { c.exports with defaultExport := c.exports.defaultExport.or c.wholeModule }

end Collected

/-- The exports that a sequence of declarations makes. -/
def exportsOf (declarations : List Declaration) : Exports :=
  (declarations.foldl Collected.add Collected.empty).finish

/-! ## Extraction -/

/-- Declarations in the order of the text; those at one place stay in the
order given. -/
def inTextOrder (declarations : List Declaration) : List Declaration :=
  declarations.mergeSort fun a b => a.position ≤ b.position

/-- The declarations of a masked text in the order of the text. -/
def declarationsOf (text : List Char) : List Declaration :=
  inTextOrder (EsModule.declarations text ++ CommonJs.declarations text)

/-- The exports of a source text. -/
def extract (source : List Char) : Exports :=
  exportsOf (declarationsOf (blankComments source))

end Source

/-- The exports of a source text. -/
def Exports.ofSource (source : String) : Exports := Source.extract source.toList

end ExportAtlas
