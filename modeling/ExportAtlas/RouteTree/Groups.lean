import ExportAtlas.RouteTree
import ExportAtlas.Text.Case
/-!
# Route groups

The routes of a forest gathered under their top-level routes. A parameter
right below a top-level route, as in `orders/[id]`, opens a group of its own,
so that its pages stay apart from the list pages. Folders such as `(auth)`
add nothing to an address, so what they hold counts one level higher.
-/

namespace ExportAtlas

/-- A top-level route, or a parameter right below one, and the names of the
pages under it. -/
structure RouteGroup where
  key : String
  children : List String
  deriving DecidableEq, Repr, Inhabited

namespace RouteGroup

/-- The top-level route of a group. -/
def base (g : RouteGroup) : String := (Text.cutOnce '/' g.key).1

/-- The group with one more page, unless it has one of that name. -/
def addChild (g : RouteGroup) (child : String) : RouteGroup :=
  if g.children.contains child then g else { g with children := g.children ++ [child] }

/-- Name parts of pages that no report shows. -/
def technicalNames : List String := ["error", "sync", "verify-email", "success", "...nextauth"]

/-- A page that no report shows. -/
def isTechnical (name : String) : Bool :=
  technicalNames.any (Text.contains (Text.lower name))

/-- A name with a square bracket in it. -/
def hasBracket (name : String) : Bool := name.toList.any fun c => c == '[' || c == ']'

end RouteGroup

/-- Whether pages with a bracket in their name are listed. -/
inductive BracketPolicy where
  | skip
  | keep
  deriving DecidableEq, Repr

namespace RouteTree

/-- The depth of a node, counting only what shows in an address. -/
def urlDepth (t : RouteTree) (id : Nat) : Nat :=
  ((t.ancestry id).dropLast.filter fun name => !isRouteGroup name).length

/-- The groups made so far, the top-level route that the walk is in, and the
key of the parameter below it that the walk is in. -/
structure Grouping where
  groups : List RouteGroup
  top : Option String
  parameter : Option String

namespace Grouping

/-- Nothing grouped. -/
def empty : Grouping := ⟨[], none, none⟩

/-- The groups with one of a key, new and last if there was none. -/
def openGroup (key : String) (groups : List RouteGroup) : List RouteGroup :=
  if groups.any fun g => g.key == key then groups else groups ++ [⟨key, []⟩]

/-- The groups with one more page in the group of a key. -/
def addChild (key child : String) (groups : List RouteGroup) : List RouteGroup :=
  groups.map fun g => if g.key = key then g.addChild child else g

/-- The key of the group that a page at an address depth belongs to. -/
def target? (g : Grouping) (depth : Nat) : Option String :=
  if 1 < depth then g.parameter.or g.top else g.top

/-- A name that the policy or its meaning keeps out of the groups. -/
def isLeftOut (policy : BracketPolicy) (name : String) : Bool :=
  RouteGroup.isTechnical name || (policy == .skip && RouteGroup.hasBracket name)

/-- One more page, below a top-level route. -/
def page (policy : BracketPolicy) (g : Grouping) (depth : Nat) (name : String) : Grouping :=
  let g := if depth = 1 then { g with parameter := none } else g
  if isLeftOut policy name then g
  else
    match g.target? depth with
    | some key => { g with groups := addChild key name g.groups }
    | none => g

/-- One more node of the walk, at an address depth. -/
def step (policy : BracketPolicy) (g : Grouping) (depth : Nat) (name : String) : Grouping :=
  if isRouteGroup name then g
  else if depth = 0 then ⟨openGroup name g.groups, some name, none⟩
  else if depth = 1 ∧ isRouteParameter name then
    match g.top with
    | some top =>
      let key := top ++ "/" ++ name
      { g with groups := openGroup key g.groups, parameter := some key }
    | none => g
  else g.page policy depth name

end Grouping

/-- The groups of a forest that have pages. -/
def routeGroups (t : RouteTree) (policy : BracketPolicy) : List RouteGroup :=
  let walked := t.preorder.foldl
    (fun g id => g.step policy (t.urlDepth id) (t.name id)) Grouping.empty
  walked.groups.filter fun g => !g.children.isEmpty

end RouteTree

end ExportAtlas
