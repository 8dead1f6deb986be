import ExportAtlas.RouteTree
import ExportAtlas.Sections
import ExportAtlas.Strategy
/-!
# The atlas of a project

The kind of a project, its files in sections and its routes: all that the
reports are made from.
-/

namespace ExportAtlas

/-- A project, classified. -/
structure Atlas where
  kind : ProjectKind
  sections : Sections
  routes : Option RouteTree
  deriving DecidableEq, Repr, Inhabited

namespace Atlas

/-- The section of a file; a file outside the root lies in the root section. -/
def sectionKey (root : Path) (strategy : Strategy) (file : FileRecord) : String :=
  match file.relativeParts? root with
  | some parts => strategy.sectionOf parts
  | none => Strategy.rootSection

/-- Files put into sections, in their order. -/
def group (root : Path) (strategy : Strategy) (files : List FileRecord) : Sections :=
  files.foldl (fun sections file => sections.push (sectionKey root strategy file) file)
    Sections.empty

/-- The atlas of a project of some kind, with its files and with the routes
that its page folders make; they count where the kind wants routes. -/
def classify (root : Path) (files : List FileRecord) (kind : ProjectKind)
    (pageFolders : RouteTree) : Atlas where
  kind := kind
  sections := group root (Strategy.ofKind kind) files
  routes := if (Strategy.ofKind kind).wantsRoutes then some pageFolders else none

/-- The routes as lines; none without a forest. -/
def routeLines (a : Atlas) : List String := (a.routes.map RouteTree.toLines).getD []

/-- The forest of routes, unless it is empty. -/
def someRoutes? (a : Atlas) : Option RouteTree := a.routes.filter fun t => !t.isEmpty

end Atlas

end ExportAtlas
