import ExportAtlas.Text.Pieces
import ExportAtlas.Text.Utf8
/-!
# Paths

A path is the bytes in which it is written; they need not be UTF-8. What it
means is its list of components: repeated and trailing slashes and inner `.`
say nothing, `..` is kept and not resolved.
-/

namespace ExportAtlas

open Text

/-- A path as it is written. -/
structure Path where
  bytes : List UInt8
  deriving DecidableEq, Repr, Inhabited

/-- A step of a path. -/
inductive Component where
  /-- The start of an absolute path. -/
  | root
  /-- A `.` at the start of a relative path. -/
  | here
  /-- A `..`. -/
  | up
  | name (bytes : List UInt8)
  deriving DecidableEq, Repr

namespace Component

/-- A component as text, with `U+FFFD` for what is not UTF-8. -/
def display : Component → String
  | root => "/"
  | here => "."
  | up => ".."
  | name bytes => Utf8.toStringLossy bytes

end Component

namespace Path

/-- The byte that separates components. -/
def slash : UInt8 := 0x2F

/-- The byte of `.`. -/
def dot : UInt8 := 0x2E

/-- The path that a text writes. -/
def ofString (s : String) : Path := ⟨Utf8.ofString s⟩

/-- A path as text, if it is UTF-8. -/
def toString? (p : Path) : Option String := Utf8.toString? p.bytes

/-- A path as text, with `U+FFFD` for what is not UTF-8. -/
def display (p : Path) : String := Utf8.toStringLossy p.bytes

/-- The path begins at the root. -/
def isAbsolute (p : Path) : Bool := p.bytes.head? == some slash

/-- The component that a piece between slashes stands for; an empty piece and
an inner `.` stand for none. -/
def component? (piece : List UInt8) : Option Component :=
  if piece = [] ∨ piece = [dot] then none
  else if piece = [dot, dot] then some .up
  else some (.name piece)

/-- The components of a path. -/
def components (p : Path) : List Component :=
  let pieces := splitOn slash p.bytes
  let steps := pieces.filterMap component?
  if p.isAbsolute then .root :: steps
  else if pieces.head? = some [dot] then .here :: steps
  else steps

/-- The last component, if it is a name. -/
def fileName? (p : Path) : Option (List UInt8) :=
  match p.components.getLast? with
  | some (.name n) => some n
  | _ => none

/-- What a name has behind its last dot. A name without a dot, or with its
only dot in front, has no extension. -/
def extensionOf? (name : List UInt8) : Option (List UInt8) :=
  let reversed := name.reverse
  match cutAt dot reversed with
  | (after, some before) => if before.isEmpty then none else some after.reverse
  | (_, none) => none

/-- What remains of a list behind a prefix. -/
def dropPrefix? {α : Type} [DecidableEq α] : List α → List α → Option (List α)
  | [], l => some l
  | x :: xs, y :: ys => if x = y then dropPrefix? xs ys else none
  | _ :: _, [] => none

/-- The components of a path under a root, as text; `none` if it does not lie
there. -/
def relativeParts? (p root : Path) : Option (List String) :=
  (dropPrefix? root.components p.components).map fun cs => cs.map Component.display

/-- A path seen from a folder: an absolute one stays, any other is written
behind the folder. -/
def join (folder p : Path) : Path :=
  if p.isAbsolute then p
  else if folder.bytes.isEmpty || folder.bytes.getLast? == some slash then
    ⟨folder.bytes ++ p.bytes⟩
  else ⟨folder.bytes ++ slash :: p.bytes⟩

/-- The absolute path of a list of names. -/
def ofNames (names : List (List UInt8)) : Path :=
  match names with
  | [] => ⟨[slash]⟩
  | names => ⟨names.flatMap (slash :: ·)⟩

end Path

end ExportAtlas
