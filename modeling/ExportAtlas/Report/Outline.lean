import ExportAtlas.Atlas
import ExportAtlas.Report.Lines
import ExportAtlas.RouteTree.Groups
/-!
# The outline

An annotated account for people: drawn blocks for routes, feature domains
and infrastructure, with an icon for each route group and domain.
-/

namespace ExportAtlas

namespace Report

namespace Outline

/-- How many pages of a route group are shown before the rest is counted. -/
def maxPages : Nat := 5

/-! ## Drawing -/

/-- The head of a block. -/
def header (title : String) : List String :=
  ["┌─ " ++ title ++ " " ++ String.ofList (List.replicate (32 - title.utf8ByteSize) '─'), "│"]

/-- What stands in front of an entry. -/
def branch (isLast : Bool) : String := if isLast then "└──" else "├──"

/-- What stands in front of the lines below an entry. -/
def indent (isLast : Bool) : String := if isLast then "    " else "│   "

/-- Entries drawn one after the other; each is told whether it is the last. -/
def drawEach {α : Type} (draw : (isLast : Bool) → α → List String) : List α → List String
  | [] => []
  | x :: rest => draw rest.isEmpty x ++ drawEach draw rest

/-- A block of entries; no block where there are none. -/
def block {α : Type} (title : String) (draw : (isLast : Bool) → α → List String)
    (entries : List α) : List String :=
  if entries.isEmpty then [] else header title ++ drawEach draw entries ++ [""]

/-! ## Routes -/

/-- Names of route groups that come first, in this order. -/
def firstGroups : List String := ["client", "admin", "api"]

/-- A group is called for by a name. -/
def isCalled (name : String) (g : RouteGroup) : Bool := Text.contains (Text.lower g.key) name

/-- Groups with those called for by the names in front, name by name, and
everything else behind them in the order given. -/
def orderBy : (names : List String) → List RouteGroup → List RouteGroup
  | [], groups => groups
  | name :: names, groups =>
    let (called, others) := groups.partition (isCalled name)
    called ++ orderBy names others

/-- Groups in the order in which they are drawn. -/
def orderGroups (groups : List RouteGroup) : List RouteGroup := orderBy firstGroups groups

/-- The pages that begin with a bracket, in lower case. -/
def parameters (children : List String) : List String :=
  (children.filter fun c => Text.startsWith c '[').map Text.lower

/-- A page has a parameter of its own: its name without the last character,
as `order` for `orders`, is part of one. -/
def hasDetail (parameters : List String) (lowered : String) : Bool :=
  let stem := String.ofList lowered.toList.dropLast
  !stem.isEmpty && parameters.any fun p => Text.contains p stem

/-- The pages left to draw, with those of a name seen before left out. -/
def consolidateFrom (parameters seen : List String) : List String → List String
  | [] => []
  | child :: rest =>
    if isRouteParameter child then consolidateFrom parameters seen rest
    else
      let lowered := Text.lower child
      if seen.contains lowered then consolidateFrom parameters seen rest
      else
        (if hasDetail parameters lowered then child ++ " (list, detail)" else child) ::
          consolidateFrom parameters (seen ++ [lowered]) rest

/-- The pages of a group as they are drawn: parameters are left out, the pages
they belong to are marked, and names that differ in case alone count once. -/
def consolidate (children : List String) : List String :=
  consolidateFrom (parameters children) [] children

/-- The icon of a route group. -/
def routeIcon (key : String) : String :=
  let lowered := Text.lower key
  let holds (word : String) := Text.contains lowered word
  if holds "client" || holds "user" then "👤"
  else if holds "admin" then "🛠️"
  else if holds "api" then "🔌"
  else if holds "auth" || holds "login" then "🔐"
  else "📄"

/-- The line of a route group. -/
def groupHeader (isLast : Bool) (g : RouteGroup) : String :=
  branch isLast ++ " " ++ routeIcon g.key ++ " " ++ Text.capitalize g.base

/-- The lines of the pages of a group. -/
def pageLines (isLast : Bool) (g : RouteGroup) : List String :=
  let pages := consolidate g.children
  (pages.take maxPages).map (fun page => indent isLast ++ "/" ++ page) ++
    if maxPages < pages.length then
      [indent isLast ++ "(" ++ toString (pages.length - maxPages) ++ " more " ++ g.base ++
        " pages)"]
    else []

/-- The groups drawn for a project. -/
def groups (a : Atlas) : List RouteGroup :=
  match a.someRoutes? with
  | none => []
  | some t => orderGroups (t.routeGroups .keep)

/-- The block of the routes. -/
def routeBlock (a : Atlas) : List String :=
  block "Routes" (fun isLast g => groupHeader isLast g :: pageLines isLast g) (groups a)

/-! ## Domains -/

/-- Parts of domain names and their icons. -/
def icons : List (String × String) :=
  [("order", "📦"), ("estimate", "📋"), ("file", "📁"), ("user", "👤"), ("auth", "🔐"),
    ("payment", "💳")]

/-- The icon of a domain. -/
def domainIcon (name : String) : String :=
  match icons.find? fun (part, _) => Text.contains name part with
  | some (_, icon) => icon
  | none => "📂"

/-- The sections shown as domains. -/
def domains (a : Atlas) : List Section := a.sections.matching "features"

/-- The line of a domain. -/
def domainLine (isLast : Bool) (s : Section) : String :=
  let name := domainName s.name
  branch isLast ++ " " ++ domainIcon name ++ " features/" ++ name

/-- The block of the domains. -/
def domainBlock (a : Atlas) : List String :=
  block "Domains" (fun isLast s => [domainLine isLast s]) (domains a)

/-! ## Infrastructure -/

/-- Parts of section names and the layer that they show. -/
def layers : List (List String × String) :=
  [(["auth"], "auth / session"), (["lib", "utils", "helpers"], "shared utils"),
    (["services"], "services"), (["models"], "data models"), (["middleware"], "middleware"),
    (["config"], "config"), (["hooks"], "hooks"), (["components"], "ui components")]

/-- The layers that a project has. -/
def infrastructure (a : Atlas) : List String :=
  (layers.filter fun (parts, _) =>
    parts.any fun part => !(a.sections.matching part).isEmpty).map Prod.snd

/-- The block of the infrastructure. -/
def infrastructureBlock (a : Atlas) : List String :=
  block "Infrastructure" (fun isLast layer => [branch isLast ++ " " ++ layer])
    (infrastructure a)

/-- The lines of the outline. -/
def lines (a : Atlas) : List String :=
  ["📁 Project: " ++ a.kind.label ++ " App",
    "   " ++ toString a.sections.fileCount ++ " files in " ++ toString a.sections.size ++
      " sections",
    ""] ++
  routeBlock a ++ domainBlock a ++ infrastructureBlock a

/-- The outline of a project. -/
def render (a : Atlas) : String := joinLines (lines a)

end Outline

end Report

end ExportAtlas
