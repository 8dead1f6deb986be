import ExportAtlas.Disk.Lookup
import ExportAtlas.RouteTree
/-!
# Page folders

The routes of a project as its page folders make them: every folder below the
first of four places that there is. Folders with a private name and the folder
of the server's own interface make no routes, nor does anything below them.
-/

namespace ExportAtlas

open Text

/-- A folder that makes a route, with those in it. -/
inductive PageFolder where
  | mk (name : String) (inner : List PageFolder)
  deriving Repr, Inhabited

namespace PageFolder

/-- The name of a folder. -/
def name : PageFolder → String
  | mk name _ => name

/-- A name that makes a route. -/
def isSegment (name : String) : Bool :=
  !(startsWith name '_' || startsWith name '.' || name == "api")

/-- The order of folders side by side: route groups first, and then by name. -/
def before (a b : String) : Bool :=
  if isRouteGroup a == isRouteGroup b then a ≤ b else isRouteGroup a

/-- Folders in order with one more. -/
def insert (f : PageFolder) : List PageFolder → List PageFolder
  | [] => [f]
  | g :: rest => if before f.name g.name then f :: g :: rest else g :: insert f rest

/-- The text of a name that makes a route. -/
def segment? (name : FileName) : Option String := (Utf8.toString? name).filter isSegment

/-- The folders among the children of a folder that make routes, in order. -/
def ofChildren : List (FileName × Entry) → List PageFolder
  | [] => []
  | (_, .file _) :: rest => ofChildren rest
  | (_, .link _) :: rest => ofChildren rest
  | (_, .device) :: rest => ofChildren rest
  | (name, .folder children) :: rest =>
    let others := ofChildren rest
    match segment? name with
    | some segment => insert (mk segment (ofChildren children)) others
    | none => others

end PageFolder

namespace RouteTree

mutual

/-- A forest with a page folder and all in it, under a parent. -/
def graft (t : RouteTree) (parent : Option Nat) : PageFolder → RouteTree
  | .mk name inner => graftAll (t.add name parent) (some t.size) inner

/-- A forest with page folders and all in them, under a parent. -/
def graftAll (t : RouteTree) (parent : Option Nat) : List PageFolder → RouteTree
  | [] => t
  | f :: rest => graftAll (t.graft parent f) parent rest

end

/-- The forest that the children of a folder make. -/
def ofFolder (children : List (FileName × Entry)) : RouteTree :=
  empty.graftAll none (PageFolder.ofChildren children)

/-- Where the pages of a project may lie. -/
def pageRoots : List String := ["app", "src/app", "pages", "src/pages"]

/-- Where the pages of a project lie. -/
def pageRoot? (d : Disk) (root : Location) : Option String :=
  pageRoots.find? fun path => d.isFolder root (Path.ofString path)

/-- The forest of a project's pages; it is empty without them. -/
def ofProject (d : Disk) (root : Location) : RouteTree :=
  match (pageRoot? d root).bind fun path => d.lookup? root (Path.ofString path) with
  | some (.folder children) => ofFolder children
  | _ => empty

end RouteTree

end ExportAtlas
