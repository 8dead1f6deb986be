import ExportAtlas.Text.Pieces
import ExportAtlas.Text.Property
import ExportAtlas.Text.Utf8
/-!
# Route trees

The page routes of a project as an ordered forest of named nodes. A node is
known by its number, counted from zero in the order of insertion; each node
holds its depth, its parent and its children, so that the forest can be
walked in either direction.

A forest is also written as lines, one node a line in pre-order, with two
spaces of indentation a level, and read back from such lines.
-/

namespace ExportAtlas

/-- A folder that groups routes without being a part of their address:
`(name)`. -/
def isRouteGroup (name : String) : Bool := Text.startsWith name '(' && Text.endsWith name ')'

/-- A parameter of an address: `[name]`. -/
def isRouteParameter (name : String) : Bool := Text.startsWith name '[' && Text.endsWith name ']'

/-- One node of a route tree. -/
structure RouteNode where
  name : String
  depth : Nat
  parent : Option Nat
  children : List Nat
  deriving DecidableEq, Repr, Inhabited

/-- A node as a line: two spaces of indentation a level, and the name. -/
def RouteNode.line (n : RouteNode) : String :=
  String.ofList (List.replicate (2 * n.depth) ' ') ++ n.name

/-- An ordered forest of routes. -/
structure RouteTree where
  nodes : Array RouteNode
  roots : List Nat
  deriving DecidableEq, Repr, Inhabited

namespace RouteTree

/-- The forest without nodes. -/
def empty : RouteTree := ⟨#[], []⟩

/-- The number of nodes. -/
def size (t : RouteTree) : Nat := t.nodes.size

/-- There are no nodes. -/
def isEmpty (t : RouteTree) : Bool := t.nodes.isEmpty

/-- The node of a number. -/
def node? (t : RouteTree) (id : Nat) : Option RouteNode := t.nodes[id]?

/-- The children of a node, in order. -/
def children (t : RouteTree) (id : Nat) : List Nat := ((t.node? id).map RouteNode.children).getD []

/-- The name of a node. -/
def name (t : RouteTree) (id : Nat) : String := ((t.node? id).map RouteNode.name).getD ""

/-- The depth of a node that is added under a parent. -/
def depthUnder (t : RouteTree) (parent : Option Nat) : Nat :=
  ((parent.bind t.node?).map fun p => p.depth + 1).getD 0

/-- The forest with one more node, which becomes the last child of its parent
or the last root. Its number is the size of the forest before. -/
def add (t : RouteTree) (name : String) (parent : Option Nat) : RouteTree :=
  let nodes := t.nodes.push ⟨name, t.depthUnder parent, parent, []⟩
  match parent with
  | some p =>
    { t with nodes := nodes.modify p fun n => { n with children := n.children ++ [t.size] } }
  | none => ⟨nodes, t.roots ++ [t.size]⟩

/-! ## Walking the forest -/

/-- The nodes on a stack and below them, in pre-order; `fuel` bounds how many
are visited. -/
def visit (t : RouteTree) : (fuel : Nat) → (stack : List Nat) → List Nat
  | 0, _ => []
  | _, [] => []
  | fuel + 1, id :: stack => id :: visit t fuel (t.children id ++ stack)

/-- Every node before its children, siblings in order. -/
def preorder (t : RouteTree) : List Nat := t.visit t.size t.roots

/-- The numbers on the way from a root to a node, put in front of `below`;
`fuel` bounds the number of steps. -/
def lineage (t : RouteTree) : (fuel : Nat) → (id : Nat) → (below : List Nat) → List Nat
  | 0, _, below => below
  | fuel + 1, id, below =>
    match t.node? id with
    | none => below
    | some n =>
      match n.parent with
      | none => id :: below
      | some p => lineage t fuel p (id :: below)

/-- The names on the way from a root to a node, the node's own last. -/
def ancestry (t : RouteTree) (id : Nat) : List String := (t.lineage t.size id []).map t.name

/-! ## Lines -/

/-- The forest as lines. -/
def toLines (t : RouteTree) : List String :=
  t.preorder.map fun id => ((t.node? id).map RouteNode.line).getD ""

/-- The depth at which a line stands: half the width of its leading blanks,
counted in bytes. -/
def lineDepth (line : String) : Nat :=
  Text.Utf8.width (line.toList.takeWhile Text.isBlank) / 2

/-- The name on a line; none on a blank one. -/
def lineName? (line : String) : Option String :=
  match Text.trim line.toList with
  | [] => none
  | name => some (String.ofList name)

/-- A forest being read, and the way from a root to its last node. -/
structure Growing where
  tree : RouteTree
  trail : List Nat

/-- One more line read. A line that is indented deeper than the last node has
children for hangs below that node. -/
def Growing.addLine (g : Growing) (line : String) : Growing :=
  match lineName? line with
  | none => g
  | some name =>
    let trail := g.trail.take (lineDepth line)
    ⟨g.tree.add name trail.getLast?, trail ++ [g.tree.size]⟩

/-- The forest that lines write. -/
def ofLines (lines : List String) : RouteTree :=
  (lines.foldl Growing.addLine ⟨empty, []⟩).tree

end RouteTree

end ExportAtlas
