import ExportAtlas.Ignore.Row
import ExportAtlas.Text.Utf8
/-!
# Globs of paths

The patterns of ignore files, compared with the bytes of a path. `*` and `?`
stay within one name; `**` stands for whole folders between slashes; `[…]`
stands for a byte of a set; braces give a choice, and a backslash takes the
character after it as it is.

A glob is read in two stages: marks, which know sets from plain characters,
and a tree of parts, in which braces are choices. The choices stay in the
tree, because written out they may be very many.
-/

namespace ExportAtlas

namespace Glob

/-! ## Marks -/

/-- A range of characters in a set. -/
structure Range where
  first : Char
  last : Char
  deriving DecidableEq, Repr

/-- A mark in the text of a glob. -/
inductive Mark where
  | plain (c : Char)
  /-- A character behind a backslash. -/
  | escaped (c : Char)
  | question
  | star
  | set (negated : Bool) (ranges : List Range)
  | openBrace
  | closeBrace
  | comma
  deriving DecidableEq, Repr

/-- A set being read. -/
structure OpenSet where
  negated : Bool
  /-- The ranges, last one first. -/
  ranges : List Range
  /-- A dash waits for the end of its range. -/
  dashed : Bool
  /-- The text behind the bracket, last character first. -/
  run : List Char
  deriving DecidableEq, Repr

/-- The set with one more character; `none` if a range is upside down. -/
def OpenSet.add (s : OpenSet) (c : Char) : Option OpenSet :=
  let run := c :: s.run
  match s.ranges with
  | [] => some { s with ranges := [⟨c, c⟩], run }
  | r :: ranges =>
    if s.dashed then
      if c < r.first then none
      else some { s with ranges := ⟨r.first, c⟩ :: ranges, dashed := false, run }
    else if c = '-' then some { s with dashed := true, run }
    else some { s with ranges := ⟨c, c⟩ :: s.ranges, run }

/-- The ranges of a set at its closing bracket; a dash that waits is a member. -/
def OpenSet.close (s : OpenSet) : List Range :=
  if s.dashed then ⟨'-', '-'⟩ :: s.ranges else s.ranges

/-- The mark of a character that means the same everywhere. -/
def markOf (c : Char) : Mark :=
  match c with
  | '?' => .question
  | '*' => .star
  | '\x7b' => .openBrace
  | '\x7d' => .closeBrace
  | ',' => .comma
  | c => .plain c

/-- The marks of a text in which brackets are plain characters. -/
def marksWithoutSets : List Char → Option (List Mark)
  | [] => some []
  | ['\\'] => none
  | '\\' :: c :: rest => (marksWithoutSets rest).map (.escaped c :: ·)
  | c :: rest => (marksWithoutSets rest).map (markOf c :: ·)

/-- The marks of a text, read from between two of them or, with an open set,
inside it. A bracket that is never closed is a plain character, and so are all
after it. -/
def marksFrom : Option OpenSet → List Char → Option (List Mark)
  | none, [] => some []
  | none, ['\\'] => none
  | none, '\\' :: c :: rest => (marksFrom none rest).map (.escaped c :: ·)
  | none, '[' :: '!' :: rest => marksFrom (some ⟨true, [], false, ['!']⟩) rest
  | none, '[' :: '^' :: rest => marksFrom (some ⟨true, [], false, ['^']⟩) rest
  | none, '[' :: rest => marksFrom (some ⟨false, [], false, []⟩) rest
  | none, c :: rest => (marksFrom none rest).map (markOf c :: ·)
  | some s, [] => (marksWithoutSets s.run.reverse).map (.plain '[' :: ·)
  | some s, c :: rest =>
    if c = ']' ∧ s.ranges ≠ [] then
      (marksFrom none rest).map (.set s.negated s.close :: ·)
    else (s.add c).bind fun s => marksFrom (some s) rest

/-! ## Parts -/

/-- A part of a glob without braces. -/
inductive Part where
  | byte (b : UInt8)
  /-- A byte other than a slash. -/
  | anyByte
  /-- Any number of bytes other than slashes. -/
  | anyRun
  /-- A byte of a set of ranges, or with `negated` one outside it. -/
  | set (negated : Bool) (ranges : List (UInt8 × UInt8))
  /-- Any folders in front: `**` at the start. -/
  | foldersBefore
  /-- A slash, any folders, and their slashes: `**` in the middle. -/
  | foldersBetween
  /-- A slash and all behind it: `**` at the end. -/
  | allBelow
  deriving DecidableEq, Repr

/-- A part of a glob with braces. -/
inductive Node where
  | part (p : Part)
  | choice (branches : List (List Node))
  deriving Repr

/-- The parts of a character: its bytes. -/
def literal (c : Char) : List Node := (Text.Utf8.encode [c]).map fun b => .part (.byte b)

/-- The bytes of a range of characters. Only the last byte of its first
character and the first byte of its last one make a range; the others stand
for themselves. -/
def byteRanges (r : Range) : List (UInt8 × UInt8) :=
  let single (b : UInt8) := (b, b)
  let first := Text.Utf8.encode [r.first]
  let last := Text.Utf8.encode [r.last]
  if r.first = r.last then first.map single
  else
    match first.getLast?, last with
    | some a, b :: more => first.dropLast.map single ++ (a, b) :: more.map single
    | _, _ => []

/-- A group between braces: the parts in front of it, last one first, and the
branches that are complete, last one first. -/
structure Group where
  before : List Node
  branches : List (List Node)

/-- The parts being read: those of the branch at hand, last one first, and the
groups that are open around it, the innermost first. -/
structure Reading where
  parts : List Node
  groups : List Group

namespace Reading

/-- Nothing read yet. -/
def start : Reading := ⟨[], []⟩

/-- One more part. -/
def push (r : Reading) (p : Part) : Reading := { r with parts := .part p :: r.parts }

/-- A part in place of the last one, unless that stands for the folders in
front. -/
def replace (r : Reading) (p : Part) : Reading :=
  match r.parts with
  | .part .foldersBefore :: _ => r
  | _ :: parts => { r with parts := .part p :: parts }
  | [] => r.push p

/-- A character. -/
def char (r : Reading) (c : Char) : Reading := { r with parts := (literal c).reverse ++ r.parts }

/-- A group begins. -/
def openGroup (r : Reading) : Reading := ⟨[], ⟨r.parts, []⟩ :: r.groups⟩

/-- A comma: the next branch of the innermost group, or a plain character
outside all groups. -/
def comma (r : Reading) : Reading :=
  match r.groups with
  | [] => r.char ','
  | g :: groups => ⟨[], ⟨g.before, r.parts.reverse :: g.branches⟩ :: groups⟩

/-- The innermost group ends; `none` if there is none. -/
def closeGroup (r : Reading) : Option Reading :=
  match r.groups with
  | [] => none
  | g :: groups =>
    some ⟨.choice (r.parts.reverse :: g.branches).reverse :: g.before, groups⟩

end Reading

/-- What two stars next to each other may stand behind. -/
inductive Behind where
  | slash
  /-- A comma or an opening brace. -/
  | branchStart
  | other
  deriving DecidableEq, Repr

/-- What a character is to stars behind it. -/
def behind (c : Char) : Behind :=
  if c = '/' then .slash else if c = ',' ∨ c = '\x7b' then .branchStart else .other

/-- Two stars behind some parts, and the marks after them: `**` in its full
sense where it fills all between two slashes, and otherwise two runs. A
slash that `**` takes along is gone from the marks that are left. -/
def doubleStar (r : Reading) (before : Behind) (rest : List Mark) : Reading × List Mark :=
  let runs := (r.push .anyRun).push .anyRun
  if r.parts.isEmpty then
    match rest with
    | [] => (r.push .foldersBefore, [])
    | .plain '/' :: rest => (r.push .foldersBefore, rest)
    | rest => (runs, rest)
  else if before = .slash ∨ (before = .branchStart ∧ ¬r.groups.isEmpty) then
    match rest with
    | [] => (r.replace .allBelow, [])
    | .plain '/' :: rest => (r.replace .foldersBetween, rest)
    | .comma :: _ => if r.groups.isEmpty then (runs, rest) else (r.replace .allBelow, rest)
    | .closeBrace :: _ => if r.groups.isEmpty then (runs, rest) else (r.replace .allBelow, rest)
    | rest => (runs, rest)
  else (runs, rest)

/-- The parts that marks write, with braces; `fuel` bounds the number of
marks. -/
def nodesFrom : (fuel : Nat) → Reading → Behind → List Mark → Option (List Node)
  | 0, _, _, _ => none
  | _, r, _, [] => if r.groups.isEmpty then some r.parts.reverse else none
  | fuel + 1, r, before, mark :: rest =>
    match mark with
    | .plain c => nodesFrom fuel (r.char c) (behind c) rest
    | .escaped c => nodesFrom fuel (r.char c) (behind c) rest
    | .question => nodesFrom fuel (r.push .anyByte) .other rest
    | .set negated ranges =>
      nodesFrom fuel (r.push (.set negated (ranges.flatMap byteRanges))) .other rest
    | .openBrace => nodesFrom fuel r.openGroup .branchStart rest
    | .comma => nodesFrom fuel r.comma .branchStart rest
    | .closeBrace => r.closeGroup.bind fun r => nodesFrom fuel r .other rest
    | .star =>
      match rest with
      | .star :: rest =>
        let (r, left) := doubleStar r before rest
        nodesFrom fuel r (if left.length = rest.length then .other else .slash) left
      | rest => nodesFrom fuel (r.push .anyRun) .other rest

/-! ## Nesting -/

/-- How much there is of a form: its pieces side by side, and how deep the
deepest of them nests. -/
structure Extent where
  pieces : Nat
  depth : Nat
  deriving DecidableEq, Repr

namespace Extent

/-- Nothing. -/
def none : Extent := ⟨0, 0⟩

/-- The pieces of two forms side by side. -/
def beside (a b : Extent) : Extent := ⟨a.pieces + b.pieces, max a.depth b.depth⟩

/-- A form taken as one piece. Two pieces or more nest one deeper together. -/
def whole (e : Extent) : Extent := ⟨1, if e.pieces ≤ 1 then e.depth else e.depth + 1⟩

end Extent

/-- The extent of a part. A set nests its ranges, a run the byte that it
repeats, and folders the choice between none and some. -/
def Part.extent : Part → Extent
  | byte _ => ⟨1, 0⟩
  | anyByte => ⟨1, 1⟩
  | anyRun => ⟨1, 2⟩
  | set _ ranges => ⟨1, if ranges.length ≤ 1 then 1 else 2⟩
  | foldersBefore => ⟨1, 4⟩
  | foldersBetween => ⟨1, 4⟩
  | allBelow => ⟨2, 1⟩

mutual

/-- The extent of a part. A choice nests one deeper than its branches, and one
between branches without pieces has none. -/
def Node.extent : Node → Extent
  | .part p => p.extent
  | .choice branches =>
    let e := branchesExtent branches
    if e.pieces = 0 then .none else ⟨1, e.whole.depth + 1⟩

/-- The extent of parts in a row. -/
def partsExtent : List Node → Extent
  | [] => .none
  | n :: rest => n.extent.beside (partsExtent rest)

/-- The extent of branches, each as one piece; one without pieces is left out. -/
def branchesExtent : List (List Node) → Extent
  | [] => .none
  | b :: rest =>
    let e := partsExtent b
    if e.pieces = 0 then branchesExtent rest else e.whole.beside (branchesExtent rest)

end

/-! ## Matching -/

/-- The byte is a slash. -/
def isSlash (b : UInt8) : Bool := b == 0x2F

/-- What a part says of a path, with a row behind it. -/
def Part.row (path : List UInt8) (r : Row) : Part → Row
  | byte b => r.one (· == b) path
  | anyByte => r.one (fun b => !isSlash b) path
  | anyRun => r.run (fun b => !isSlash b) path
  | set negated ranges => r.one (fun x => ranges.any (fun (a, b) => a ≤ x && x ≤ b) != negated) path
  | foldersBefore => r.either (r.past isSlash path)
  | foldersBetween => (r.either (r.past isSlash path)).one isSlash path
  | allBelow => (r.run (fun _ => true) path).one isSlash path

mutual

/-- What a part says of a path, with a row behind it. A choice between
branches without pieces says nothing. -/
def Node.row (path : List UInt8) (r : Row) : Node → Row
  | .part p => p.row path r
  | .choice branches =>
    if (branchesExtent branches).pieces = 0 then r else branchesRow path r branches

/-- What parts say of a path one after the other. -/
def partsRow (path : List UInt8) (r : Row) : List Node → Row
  | [] => r
  | n :: rest => n.row path (partsRow path r rest)

/-- What a choice says of a path; a branch without pieces is none. -/
def branchesRow (path : List UInt8) (r : Row) : List (List Node) → Row
  | [] => .nowhere path
  | b :: rest =>
    let others := branchesRow path r rest
    if (partsExtent b).pieces = 0 then others else (partsRow path r b).either others

end

end Glob

/-- A glob, as its parts. -/
structure Glob where
  nodes : List Glob.Node
  deriving Repr

namespace Glob

/-- The glob that a text writes; `none` if a brace is left open or closed too
often, a range is upside down, or a backslash stands at the end. `**` alone
is every path. -/
def parse? (s : List Char) : Option Glob := do
  let marks ← marksFrom none s
  match ← nodesFrom (marks.length + 1) .start .other marks with
  | [.part .foldersBefore] => some ⟨[.part .foldersBefore, .part .anyRun]⟩
  | nodes => some ⟨nodes⟩

/-- How deep a glob may nest to be of use. -/
def depthLimit : Nat := 250

/-- How deep a glob nests: its parts together, and what they hold. -/
def depth (g : Glob) : Nat := (partsExtent g.nodes).depth + 1

/-- A path has the form of a glob. -/
def accepts (g : Glob) (path : List UInt8) : Bool :=
  (partsRow path (Row.atEnd path) g.nodes).fits

end Glob

end ExportAtlas
